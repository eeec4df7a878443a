import Polyphony.Proofs.Engine.Rendering

/-!
# Reachable engines

A host builds an engine and then operates it: it exchanges settings, pushes
events, changes rates and clocks, silences or resets, and lets the engine
process blocks.  What a host asks for and does not get leaves the engine as it
is.  An engine is reachable if it arises this way.

**Within a block.**  Events are performed in states that no host sees: those
after the block has been opened and some of its events have been performed.

**Results.**
* `RosterInvariant.of_reachable`: what holds of the roster at first and is kept by
  events, silence and settings holds of every reachable engine.
* `RosterInvariant.of_midway`: it also holds within a block.
-/

namespace Polyphony

/--
Libraries for trials.  The logarithm counts whole octaves, which is right an octave
below, at, and an octave above the concert pitch; the numbers go up and down.
-/
def Library.plain : Library where
  log2 ratio := if ratio < 1.0 then -1.0 else if ratio < 2.0 then 0.0 else 1.0
  log2_one := by decide
  numbers _ drawn := if drawn % 2 = 0 then 0.5 else -0.5

/-- What a host does with an engine. -/
inductive Operation
  | attachMailbox
  | post (s : Settings)
  | stage (s : Settings)
  | push (event : Event)
  | setSampleRate (rate : Float32)
  | setTemperament (t : Temperament)
  | setClock (time : Nat)
  | silence
  | reset
  | process (frames : Nat) (out : Buffer)

namespace Operation

/-- Whether an operation leaves the notes of an engine alone. -/
def isQuiet : Operation → Bool
  | .silence => false
  | .reset => false
  | .process _ _ => false
  | _ => true

end Operation

namespace Engine

section Operations

/-- The engine after an operation, also after one that is refused. -/
def operate (e : Engine) : Operation → Engine
  | .attachMailbox => e.attachMailbox
  | .post s =>
      match e.post? s with
      | some posted => posted.state
      | none => e
  | .stage s => e.stage s
  | .push event => (e.push event).state
  | .setSampleRate rate => (e.withSampleRate rate).state
  | .setTemperament t => e.withTemperament t
  | .setClock time => e.withClock time
  | .silence => e.silence
  | .reset => e.reset
  | .process frames out => (e.process frames out).1

/-- The engines that arise from building one and from operations that are allowed. -/
inductive ReachableBy (allowed : Engine → Operation → Prop) : Engine → Prop
  | build
      {capacity queueLength : Nat} {rate : Float32} {t : Temperament} {library : Library}
      {e : Engine}
      (h : Engine.build capacity rate (EventQueue.empty queueLength) t library = .ok e) :
      ReachableBy allowed e
  | operate
      {e : Engine} {op : Operation}
      (h : ReachableBy allowed e)
      (hop : allowed e op) :
      ReachableBy allowed (e.operate op)

/-- The engines that arise from building one and from any operations. -/
def Reachable : Engine → Prop :=
  ReachableBy fun _ _ => True

/-- The engine whose block of `n` frames has begun, none of its events performed. -/
def opened (e : Engine) (n : Nat) : Engine :=
  { e.prepare n with queue := (e.prepare n).queue.dropBefore ((e.prepare n).clock + n) }

/-- The engines in which events are performed, and those that a host sees. -/
inductive Midway : Engine → Prop
  | boundary
      {e : Engine}
      (h : Reachable e) :
      Midway e
  | opened
      {e : Engine}
      (h : Reachable e)
      (n : Nat) :
      Midway (e.adoptAwaited.opened n)
  | perform
      {e : Engine}
      (h : Midway e)
      (event : Event) :
      Midway (e.perform event)

theorem Midway.performAll
    {e : Engine}
    (h : Midway e)
    (events : List Event) :
    Midway (events.foldl Engine.perform e) := by
  induction events generalizing e with
  | nil => exact h
  | cons event events ih => exact ih (h.perform event)

/-- The events of a block, performed on the engine whose block has begun. -/
theorem performed_eq (e : Engine) (n : Nat) :
    e.performed n
      = (((e.prepare n).due n).map (e.prepare n).localEvent).foldl perform (e.opened n) := by
  rfl

/-- What is allowed less is reached less. -/
theorem ReachableBy.mono
    {allowed more : Engine → Operation → Prop} {e : Engine}
    (hmore : ∀ e op, allowed e op → more e op)
    (h : ReachableBy allowed e) :
    ReachableBy more e := by
  induction h with
  | build h => exact .build h
  | operate _ hop ih => exact .operate ih (hmore _ _ hop)

/-- Further operations that are always allowed lead to engines that are reached. -/
theorem ReachableBy.operateAll
    {allowed : Engine → Operation → Prop} {e : Engine}
    (h : ReachableBy allowed e)
    (ops : List Operation)
    (hops : ∀ op ∈ ops, ∀ e, allowed e op) :
    ReachableBy allowed (ops.foldl Engine.operate e) := by
  induction ops generalizing e with
  | nil => exact h
  | cons op ops ih =>
      exact ih (.operate h (hops op List.mem_cons_self e))
        fun op hop => hops op (List.mem_cons_of_mem _ hop)

theorem Reachable.operateAll
    {e : Engine}
    (h : Reachable e)
    (ops : List Operation) :
    Reachable (ops.foldl Engine.operate e) :=
  ReachableBy.operateAll h ops fun _ _ _ => trivial

/-- An engine that was built is at rest. -/
theorem eq_idle_of_build
    {capacity : Nat} {rate : Float32} {queue : EventQueue} {t : Temperament}
    {library : Library} {e : Engine}
    (h : Engine.build capacity rate queue t library = .ok e) :
    e = idle capacity rate queue t library := by
  unfold Engine.build at h
  split at h
  · cases h
  · split at h
    · cases h
    · cases h
      rfl

/-- Two voices at rest, with a queue for eight events, are reached at once. -/
theorem reachableBy_idlePair (allowed : Engine → Operation → Prop) :
    ReachableBy allowed (idle 2 48000.0 (EventQueue.empty 8) {} .plain) :=
  .build (show Engine.build 2 48000.0 (EventQueue.empty 8) {} .plain = .ok _ by rfl)

end Operations

section Rosters

/-- Distributing glide times does not change the roster. -/
theorem roster_distributeGlides (e : Engine) :
    e.distributeGlides.roster = e.roster := by
  unfold roster distributeGlides Bank.mapAll
  dsimp only
  rw [List.map_map]
  rfl

theorem roster_withSampleRate
    {e after : Engine} {rate : Float32}
    (h : e.withSampleRate rate = .ok () after) :
    after.roster = e.roster := by
  unfold withSampleRate at h
  split at h
  · cases h
    rw [roster_distributeGlides]
    unfold roster Bank.withSampleRate Bank.mapAll
    dsimp only
    rw [List.map_map]
    rfl
  · cases h

/-- A push that is accepted changes the queue alone. -/
theorem eq_of_push
    {e after : Engine} {event : Event}
    (h : e.push event = .ok () after) :
    ∃ queue, e.queue.push event = .ok () queue ∧ after = { e with queue } := by
  unfold push at h
  cases hqueue : e.queue.push event with
  | error refusal left =>
      rw [hqueue] at h
      cases h
  | ok _ queue =>
      rw [hqueue] at h
      cases h
      exact ⟨queue, rfl, rfl⟩

/-- A pushed event changes the queue alone, and it only if it is accepted. -/
theorem exists_operate_push (e : Engine) (event : Event) :
    ∃ queue, (e.queue.push event = .ok () queue ∨ queue = e.queue)
      ∧ e.operate (.push event) = { e with queue } := by
  show ∃ queue, _ ∧ (e.push event).state = { e with queue }
  cases hpush : e.push event with
  | ok _ after =>
      obtain ⟨queue, hqueue, rfl⟩ := eq_of_push hpush
      exact ⟨queue, .inl hqueue, rfl⟩
  | error refusal left => exact ⟨e.queue, .inr rfl, e.harmless_push event refusal left hpush⟩

/-- An event that is refused changes nothing. -/
theorem operate_push_of_error
    {e after : Engine} {event : Event} {refusal : Refusal}
    (h : e.push event = .error refusal after) :
    e.operate (.push event) = e := by
  show (e.push event).state = e
  rw [h]
  exact e.harmless_push event refusal after h

/-- Posted settings come to wait in the mailbox, if there is one and they are accepted. -/
theorem operate_post (e : Engine) (s : Settings) :
    e.operate (.post s)
      = { e with
          mailbox := e.mailbox.map fun box => (box.post s).state } := by
  unfold operate post?
  dsimp only
  cases hbox : e.mailbox with
  | none => rw [Option.map_none, Option.map_none, ← hbox]
  | some box => exact Attempt.state_within _ _

/-- A sample rate that is refused changes nothing. -/
theorem operate_setSampleRate_cases (e : Engine) (rate : Float32) :
    e.withSampleRate rate = .ok () (e.operate (.setSampleRate rate))
      ∨ e.operate (.setSampleRate rate) = e := by
  show e.withSampleRate rate = .ok () (e.withSampleRate rate).state
    ∨ (e.withSampleRate rate).state = e
  cases hrate : e.withSampleRate rate with
  | ok _ after => exact .inl rfl
  | error fault left => exact .inr (e.harmless_withSampleRate rate fault left hrate)

/-- A quiet operation does not change the roster. -/
theorem roster_operate
    (e : Engine) {op : Operation}
    (hquiet : op.isQuiet = true) :
    (e.operate op).roster = e.roster := by
  cases op with
  | attachMailbox => rfl
  | post s =>
      rw [operate_post]
      rfl
  | stage s => rfl
  | push event =>
      obtain ⟨_, -, hpush⟩ := exists_operate_push e event
      rw [hpush]
      rfl
  | setSampleRate rate =>
      rcases operate_setSampleRate_cases e rate with hrate | hsame
      · exact roster_withSampleRate hrate
      · rw [hsame]
  | setTemperament t => rfl
  | setClock time => rfl
  | silence => cases hquiet
  | reset => cases hquiet
  | process frames out => cases hquiet

/-- What holds of rosters at first and is kept by all that changes them. -/
structure RosterInvariant (P : Roster → Prop) : Prop where
  idle : ∀ capacity rate queue t library, P (Engine.idle capacity rate queue t library).roster
  perform : ∀ e event, P e.roster → P (Engine.perform e event).roster
  silence : ∀ e, P e.roster → P (Engine.silence e).roster
  reset : ∀ e, P e.roster → P (Engine.reset e).roster
  adopt : ∀ e next, P e.roster → P (Engine.adopt e next).roster

namespace RosterInvariant

variable {P : Roster → Prop} {e : Engine}

theorem adoptAwaited
    (hinv : RosterInvariant P)
    (h : P e.roster) :
    P e.adoptAwaited.roster := by
  unfold Engine.adoptAwaited
  split
  · exact hinv.adopt e.taken _ h
  · exact h

theorem performAll
    (hinv : RosterInvariant P)
    (events : List Event)
    (h : P e.roster) :
    P (events.foldl Engine.perform e).roster := by
  induction events generalizing e with
  | nil => exact h
  | cons event events ih => exact ih (hinv.perform e event h)

theorem opened
    (hinv : RosterInvariant P)
    (n : Nat)
    (h : P e.roster) :
    P (e.adoptAwaited.opened n).roster := by
  have hprepared : (e.adoptAwaited.opened n).roster = e.adoptAwaited.roster :=
    roster_prepare e.adoptAwaited n
  rw [hprepared]
  exact hinv.adoptAwaited h

theorem process
    (hinv : RosterInvariant P)
    (frames : Nat) (out : Buffer)
    (h : P e.roster) :
    P (e.process frames out).1.roster := by
  unfold Engine.process
  dsimp only
  split
  · exact hinv.adoptAwaited h
  · rw [roster_renderBlock, performed_eq]
    exact hinv.performAll _ (hinv.opened _ h)

/-- An invariant of rosters holds of every engine that a host reaches. -/
theorem of_reachable
    (hinv : RosterInvariant P)
    (h : Reachable e) :
    P e.roster := by
  induction h with
  | build h =>
      rw [eq_idle_of_build h]
      exact hinv.idle _ _ _ _ _
  | @operate e op _ _ ih =>
      cases hquiet : op.isQuiet with
      | true =>
          rw [roster_operate e hquiet]
          exact ih
      | false =>
          cases op with
          | silence => exact hinv.silence e ih
          | reset => exact hinv.reset e ih
          | process frames out => exact hinv.process frames out ih
          | _ => cases hquiet

/-- It also holds of the engines within a block. -/
theorem of_midway
    (hinv : RosterInvariant P)
    (h : Midway e) :
    P e.roster := by
  induction h with
  | boundary h => exact hinv.of_reachable h
  | opened h n => exact hinv.opened n (hinv.of_reachable h)
  | @perform e _ event ih => exact hinv.perform e event ih

end RosterInvariant

end Rosters

end Engine
end Polyphony
