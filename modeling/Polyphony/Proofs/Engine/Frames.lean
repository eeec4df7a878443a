import Polyphony.Proofs.Engine.Matching
import Polyphony.Proofs.Engine.Reachable
import Polyphony.Proofs.EventQueue

/-!
# Engines frame by frame

A block of an engine, taken as it is meant: its events are performed, and then
every ramp takes the frames of the block one after the other, its changes coming
nearer.  A tick is such a block of a single frame.

**Levels.**  What a stream of a voice is worth is read off the values of the
ramps.

**Results.**
* `Ready.matches_performed`: the first frame of a block may be cut off.
* `Ready.elapse_eq_ticks`: a block is as many ticks as it has frames, and is heard
  as they are.
-/

namespace Polyphony

namespace Controls

section Levels

/-- What a stream of voice `id` is worth while its ramps are at their values. -/
def level (c : Controls) (settings : Settings) (shift : Float32) (id : Nat) : Stream → Float32
  | .pitch =>
      let pitch :=
        match settings.protocol with
        | .conventional => c.pitch.value + c.pitchBend.value
        | .expressive => c.pitch.value
        | .continuousTouch => c.pitch.value
      if shift == 0.0 then pitch else pitch + shift
  | .gate => c.gate.value
  | .velocity => c.velocity.value
  | .voice => Float32.ofNat id
  | .aftertouch =>
      match settings.protocol with
      | .conventional => c.notePressure.value + c.channelPressure.value
      | .expressive => c.channelPressure.value
      | .continuousTouch => c.amp.value
  | .modA => c.mod1.value
  | .modB => c.mod2.value
  | .modC => c.mod3.value

/-- Levels are read off the values. -/
theorem level_congr
    {c d : Controls}
    (h : ∀ role, (c.get role).value = (d.get role).value)
    (settings : Settings) (shift : Float32) (id : Nat) (s : Stream) :
    c.level settings shift id s = d.level settings shift id s := by
  have hpitch : c.pitch.value = d.pitch.value := h .pitch
  have hbend : c.pitchBend.value = d.pitchBend.value := h .pitchBend
  have hnote : c.notePressure.value = d.notePressure.value := h .notePressure
  have hchannel : c.channelPressure.value = d.channelPressure.value := h .channelPressure
  have hamp : c.amp.value = d.amp.value := h .amp
  cases s with
  | pitch =>
      unfold level
      rw [hpitch, hbend]
  | gate => exact h .gate
  | velocity => exact h .velocity
  | voice => rfl
  | aftertouch =>
      unfold level
      rw [hnote, hchannel, hamp]
  | modA => exact h .mod1
  | modB => exact h .mod2
  | modC => exact h .mod3

theorem get_iterate_apply (rule : Rule) (n : Nat) (c : Controls) (role : Role) :
    ((apply rule)^[n] c).get role = (rule role)^[n] (c.get role) := by
  induction n generalizing c with
  | zero => rfl
  | succ n ih => rw [Function.iterate_succ_apply, ih, get_apply, Function.iterate_succ_apply]

end Levels

end Controls

namespace Engine

section Matching

variable {rule : Rule} {e f g : Engine}

/-- Matching one after the other, by one rule and then by another. -/
theorem Matches.trans
    {rule' : Rule}
    (h : Matches rule e f)
    (h' : Matches rule' f g) :
    Matches (fun role r => rule' role (rule role r)) e g := by
  constructor
  · exact h'.settings.trans h.settings
  · exact h'.tuningShift.trans h.tuningShift
  · exact h'.temperament.trans h.temperament
  · exact h'.pedal.trans h.pedal
  · exact h'.held.trans h.held
  · exact h'.displaced.trans h.displaced
  · exact h'.count.trans h.count
  · exact h'.rotation.trans h.rotation
  · exact h'.length.trans h.length
  · intro id v x hv hx
    obtain ⟨w, hw⟩ := h.exists_voice hv
    obtain ⟨hessence, hcontrols⟩ := h.voices id v w hv hw
    obtain ⟨hessence', hcontrols'⟩ := h'.voices id w x hw hx
    refine ⟨hessence'.trans hessence, ?_⟩
    intro hid
    have hid' : id < f.bank.count := by
      rw [h.count]
      exact hid
    rw [hcontrols' hid', hcontrols hid]
    rfl

/-- What matches the same engine by the same rule matches as it is. -/
theorem Matches.of_both
    (h : Matches rule e f)
    (h' : Matches rule e g) :
    Matches Rule.stay f g := by
  constructor
  · exact h'.settings.trans h.settings.symm
  · exact h'.tuningShift.trans h.tuningShift.symm
  · exact h'.temperament.trans h.temperament.symm
  · exact h'.pedal.trans h.pedal.symm
  · exact h'.held.trans h.held.symm
  · exact h'.displaced.trans h.displaced.symm
  · exact h'.count.trans h.count.symm
  · exact h'.rotation.trans h.rotation.symm
  · exact h'.length.trans h.length.symm
  · intro id w x hw hx
    obtain ⟨v, hv⟩ := h.exists_origin hw
    obtain ⟨hessence, hcontrols⟩ := h.voices id v w hv hw
    obtain ⟨hessence', hcontrols'⟩ := h'.voices id v x hv hx
    refine ⟨hessence'.trans hessence.symm, ?_⟩
    intro hid
    have hid' : id < e.bank.count := by
      rw [← h.count]
      exact hid
    exact (hcontrols' hid').trans (hcontrols hid').symm

theorem Matches.refl (e : Engine) :
    Matches Rule.stay e e := by
  refine ⟨rfl, rfl, rfl, rfl, rfl, rfl, rfl, rfl, rfl, ?_⟩
  intro id v w hv hw
  rw [hv] at hw
  cases hw
  exact ⟨rfl, fun _ => rfl⟩

theorem Matches.symm
    (h : Matches Rule.stay e f) :
    Matches Rule.stay f e :=
  h.of_both (Matches.refl e)

/-- Doing what the rule says to the ramps of the voices that play. -/
theorem matches_mapActive (rule : Rule) (e : Engine) :
    Matches rule e (e.mapActive fun v => v.mapControls (Controls.apply rule)) := by
  refine ⟨rfl, rfl, rfl, rfl, rfl, rfl, rfl, rfl, ?_, ?_⟩
  · exact Bank.capacity_mapActiveIdx _ _
  · intro id v w hv hw
    have hget : (e.bank.mapActiveIdx fun _ v => v.mapControls (Controls.apply rule)).voices[id]?
        = some w := hw
    rw [Bank.getElem?_mapActiveIdx, hv, Option.map_some, Option.some.injEq] at hget
    subst hget
    by_cases hid : id < e.bank.count
    · rw [if_pos hid]
      exact ⟨rfl, fun _ => rfl⟩
    · rw [if_neg hid]
      exact ⟨rfl, fun hlt => absurd hlt hid⟩

end Matching

section Levels

variable {rule : Rule} {e f : Engine} {event : Event}

/-- What a stream of a voice is worth; a voice that plays no notes is silent. -/
def level (e : Engine) (id : Nat) (s : Stream) : Float32 :=
  match e.bank.voice? id with
  | some v =>
      if id < e.bank.count then v.toControls.level e.settings e.tuningShift id s else 0.0
  | none => 0.0

/-- What a stream of a voice is worth after each of the next `n` steps. -/
def heard (step : Engine → Engine) (e : Engine) (id : Nat) (s : Stream) (n : Nat) :
    List Float32 :=
  (List.range n).map fun k => (step^[k + 1] e).level id s

@[simp] theorem heard_zero (step : Engine → Engine) (e : Engine) (id : Nat) (s : Stream) :
    heard step e id s 0 = [] := by
  rfl

theorem heard_succ (step : Engine → Engine) (e : Engine) (id : Nat) (s : Stream) (n : Nat) :
    heard step e id s (n + 1) = (step e).level id s :: heard step (step e) id s n := by
  unfold heard
  rw [List.range_succ_eq_map, List.map_cons, List.map_map]
  rfl

theorem heard_add (step : Engine → Engine) (e : Engine) (id : Nat) (s : Stream) (m n : Nat) :
    heard step e id s (m + n) = heard step e id s m ++ heard step (step^[m] e) id s n := by
  induction m generalizing e with
  | zero =>
      rw [Nat.zero_add]
      rfl
  | succ m ih =>
      rw [Nat.add_right_comm, heard_succ, heard_succ, ih, Function.iterate_succ_apply]
      rfl

theorem Matches.level
    (h : Matches Rule.stay e f)
    (id : Nat) (s : Stream) :
    f.level id s = e.level id s := by
  unfold Engine.level Bank.voice?
  cases hv : e.bank.voices[id]? with
  | none => rw [h.voice_eq_none hv]
  | some v =>
      obtain ⟨w, hw⟩ := h.exists_voice hv
      have hcontrols := (h.voices id v w hv hw).2
      rw [hw, h.count, h.settings, h.tuningShift]
      dsimp only
      by_cases hid : id < e.bank.count
      · rw [if_pos hid, if_pos hid, hcontrols hid]
        rfl
      · rw [if_neg hid, if_neg hid]

/-- An event that does not silence moves no value at once. -/
theorem level_perform
    (hsilent : e.silences event = false)
    (id : Nat) (s : Stream) :
    (Engine.perform e event).level id s = e.level id s := by
  have hback := background_perform e event
  have hsettings : (Engine.perform e event).settings = e.settings :=
    congrArg Background.settings hback
  have hshift : (Engine.perform e event).tuningShift = e.tuningShift :=
    congrArg Background.tuningShift hback
  have hcount : (Engine.perform e event).bank.count = e.bank.count :=
    congrArg Background.count hback
  unfold level Bank.voice?
  rw [voices_perform hsilent, answered, Bank.getElem?_mapActiveIdx, hsettings, hshift, hcount]
  cases e.bank.voices[id]? with
  | none => rfl
  | some v =>
      dsimp only [Option.map_some]
      by_cases hid : id < e.bank.count
      · rw [if_pos hid, if_pos hid, if_pos hid, Answer.take_eq]
        apply Controls.level_congr
        intro role
        dsimp only
        rw [Controls.get_scheduleAll]
        rfl
      · rw [if_neg hid, if_neg hid]

theorem level_performAll
    {events : List Event}
    (hgentle : e.GentleAll events)
    (id : Nat) (s : Stream) :
    (events.foldl Engine.perform e).level id s = e.level id s := by
  induction events generalizing e with
  | nil => rfl
  | cons event events ih =>
      exact (ih hgentle.2).trans (level_perform hgentle.1.1 id s)

end Levels

section Frames

variable {rule : Rule} {e f : Engine}

/-- The engine after one frame in which nothing is performed. -/
def frame (e : Engine) : Engine :=
  { e.mapActive fun v => v.mapControls (Controls.apply (Rule.frame e.settings)) with
    clock := e.clock + 1 }

/-- A block of `n` frames: its events are performed, and then the frames pass. -/
def elapse (e : Engine) (n : Nat) : Engine :=
  frame^[n] (e.performed n)

/-- A block of one frame. -/
def tick (e : Engine) : Engine :=
  e.elapse 1

theorem matches_frame (e : Engine) :
    Matches (Rule.frame e.settings) e e.frame := by
  have h := matches_mapActive (Rule.frame e.settings) e
  exact ⟨h.settings, h.tuningShift, h.temperament, h.pedal, h.held, h.displaced, h.count,
    h.rotation, h.length, h.voices⟩

theorem Matches.frame
    (h : Matches Rule.stay e f) :
    Matches Rule.stay e.frame f.frame := by
  have hf := matches_frame f
  rw [h.settings] at hf
  exact (matches_frame e).of_both (h.trans hf)

theorem Matches.iterate_frame
    (h : Matches Rule.stay e f)
    (n : Nat) :
    Matches Rule.stay (Engine.frame^[n] e) (Engine.frame^[n] f) := by
  induction n generalizing e f with
  | zero => exact h
  | succ n ih =>
      rw [Function.iterate_succ_apply, Function.iterate_succ_apply]
      exact ih h.frame

/-- Several frames at once. -/
theorem iterate_frame (e : Engine) (n : Nat) :
    Engine.frame^[n] e =
      { e.mapActive fun v => v.mapControls (Controls.apply (Rule.frame e.settings))^[n] with
        clock := e.clock + n } := by
  induction n with
  | zero =>
      have hsame : e.mapActive (fun v => v.mapControls (Controls.apply (Rule.frame e.settings))^[0])
          = e := by
        show { e with bank := e.bank.mapActiveIdx fun _ v => v } = e
        rw [Bank.mapActiveIdx_id]
      rw [hsame]
      rfl
  | succ n ih =>
      rw [Function.iterate_succ_apply', ih]
      unfold frame mapActive Bank.mapActive
      dsimp only
      rw [Bank.mapActiveIdx_mapActiveIdx]
      simp only [Voice.mapControls, Function.iterate_succ_apply', Nat.add_assoc]

end Frames

section Blocks

variable {e f : Engine} {n : Nat}

/-- The events of a block of `n` frames at their times within it. -/
def upcoming (e : Engine) (n : Nat) : List Event :=
  ((e.prepare n).due n).map (e.prepare n).localEvent

/-- Whether every event of a block is gentle. -/
def GentleBlock (e : Engine) (n : Nat) : Prop :=
  (e.opened n).GentleAll (e.upcoming n)

instance (e : Engine) (n : Nat) : Decidable (e.GentleBlock n) :=
  inferInstanceAs (Decidable (GentleAll _ _))

/-- An engine between two blocks: no drift, nothing pending, and its events in order. -/
structure Ready (e : Engine) : Prop where
  still : ¬ 0.0 < e.settings.drift
  fits : e.bank.count ≤ e.bank.voices.length
  settled : ∀ v ∈ e.bank.active, ∀ role, (v.toControls.get role).pending = []
  sorted : e.queue.waiting.Pairwise fun a b => a.time ≤ b.time

/-- Two engines that match at the same time and with the same events to come. -/
structure Abreast (e f : Engine) : Prop extends Matches Rule.stay e f where
  clock : f.clock = e.clock
  waiting : f.queue.waiting = e.queue.waiting

theorem prepare_of_still
    (h : ¬ 0.0 < e.settings.drift)
    (n : Nat) :
    e.prepare n = e.growVoices n :=
  if_neg h

/-- The events of a block, as they wait. -/
theorem upcoming_eq (e : Engine) (n : Nat) :
    e.upcoming n
      = (e.queue.waiting.takeWhile fun event => event.time < e.clock + n).map e.localEvent := by
  unfold upcoming due localEvent
  rw [queue_prepare, clock_prepare]
  rfl

theorem time_lt_of_mem_upcoming
    (hn : 0 < n)
    {event : Event}
    (hmem : event ∈ e.upcoming n) :
    event.time < n := by
  rw [upcoming_eq] at hmem
  obtain ⟨waiting, hwaiting, rfl⟩ := List.mem_map.1 hmem
  have hdue : waiting.time < e.clock + n := by
    simpa using List.mem_takeWhile_imp hwaiting
  show waiting.time - e.clock < n
  omega

/-- Without drift a block opens by counting the ages of the voices. -/
theorem matches_opened
    (h : ¬ 0.0 < e.settings.drift)
    (n : Nat) :
    Matches Rule.stay e (e.opened n) := by
  have hopened : e.opened n
      = { e.growVoices n with queue := e.queue.dropBefore (e.clock + n) } := by
    unfold opened
    rw [prepare_of_still h]
    rfl
  rw [hopened]
  refine ⟨rfl, rfl, rfl, rfl, rfl, rfl, rfl, rfl, Bank.capacity_mapActiveIdx _ _, ?_⟩
  intro id v w hv hw
  have hget : (e.bank.mapActiveIdx fun _ v => v.grow n).voices[id]? = some w := hw
  rw [Bank.getElem?_mapActiveIdx, hv, Option.map_some, Option.some.injEq] at hget
  subst hget
  unfold Voice.grow
  split
  · split
    · exact ⟨rfl, fun _ => rfl⟩
    · exact ⟨rfl, fun _ => rfl⟩
  · exact ⟨rfl, fun _ => rfl⟩

/-- Without drift the events of a block leave the queue, and the rest of the background stays. -/
theorem background_performed
    (h : ¬ 0.0 < e.settings.drift)
    (n : Nat) :
    (e.performed n).background
      = { e.background with queue := e.queue.dropBefore (e.clock + n) } := by
  have hopened : (e.opened n).background
      = { e.background with queue := e.queue.dropBefore (e.clock + n) } := by
    unfold opened
    rw [prepare_of_still h]
    simp [background, growVoices, mapActive, Bank.mapActive, capacity]
  rw [performed_eq, background_performAll, hopened]

/-- Then its frames move the clock. -/
theorem background_elapse
    (h : ¬ 0.0 < e.settings.drift)
    (n : Nat) :
    (e.elapse n).background =
      { e.background with
        clock := e.clock + n
        queue := e.queue.dropBefore (e.clock + n) } := by
  have hperformed := background_performed h n
  have hframes (f : Engine) :
      (Engine.frame^[n] f).background = { f.background with clock := f.clock + n } := by
    rw [iterate_frame]
    simp [background, mapActive, Bank.mapActive, capacity]
  have hclock : (e.performed n).clock = e.clock := congrArg Background.clock hperformed
  unfold elapse
  rw [hframes, hclock, hperformed]

theorem settings_performed
    (h : ¬ 0.0 < e.settings.drift)
    (n : Nat) :
    (e.performed n).settings = e.settings :=
  congrArg Background.settings (background_performed h n)

theorem settings_elapse
    (h : ¬ 0.0 < e.settings.drift)
    (n : Nat) :
    (e.elapse n).settings = e.settings :=
  congrArg Background.settings (background_elapse h n)

theorem clock_elapse
    (h : ¬ 0.0 < e.settings.drift)
    (n : Nat) :
    (e.elapse n).clock = e.clock + n :=
  congrArg Background.clock (background_elapse h n)

theorem waiting_elapse
    (h : ¬ 0.0 < e.settings.drift)
    (n : Nat) :
    (e.elapse n).queue.waiting
      = e.queue.waiting.dropWhile fun event => event.time < e.clock + n :=
  congrArg (fun b => b.queue.waiting) (background_elapse h n)

end Blocks

section Cutting

variable {e f : Engine} {n : Nat}

theorem gentleAll_append
    {xs ys : List Event}
    (h : e.GentleAll (xs ++ ys)) :
    e.GentleAll xs ∧ (xs.foldl Engine.perform e).GentleAll ys := by
  induction xs generalizing e with
  | nil => exact ⟨trivial, h⟩
  | cons x xs ih =>
      obtain ⟨hx, hrest⟩ := h
      obtain ⟨hxs, hys⟩ := ih hrest
      exact ⟨⟨hx, hxs⟩, hys⟩

theorem InOrder.performAll
    {events : List Event}
    (h : e.InOrder)
    (hgentle : e.GentleAll events) :
    (events.foldl Engine.perform e).InOrder := by
  induction events generalizing e with
  | nil => exact h
  | cons event events ih => exact ih (h.perform hgentle.1) hgentle.2

/-- The same events leave matching engines matching. -/
theorem Matches.performSame
    {events : List Event}
    (h : Matches Rule.stay e f)
    (horder : e.InOrder)
    (hgentle : e.GentleAll events) :
    Matches Rule.stay (events.foldl Engine.perform e) (events.foldl Engine.perform f)
      ∧ f.GentleAll events := by
  have hsame : (events.map fun event => event.sooner 0) = events := List.map_id events
  have hperformed := h.performAll Rule.passes_stay horder hgentle fun _ _ => Nat.zero_le _
  rw [hsame] at hperformed
  exact hperformed

/-- Opening a block leaves nothing pending. -/
theorem Ready.settled_opened
    (h : e.Ready)
    (n : Nat) :
    ∀ v ∈ (e.opened n).bank.active, ∀ role, (v.toControls.get role).pending = [] := by
  intro w hw role
  obtain ⟨v, hv, hcontrols⟩ := (matches_opened h.still n).mem_active hw
  rw [hcontrols]
  exact h.settled v hv role

theorem Ready.inOrder
    (h : e.Ready)
    (n : Nat) :
    (e.opened n).InOrder := by
  have hmatch := matches_opened h.still n
  constructor
  · rw [hmatch.count, hmatch.length]
    exact h.fits
  · intro v hv role
    rw [h.settled_opened n v hv role]
    exact List.Pairwise.nil

/-- The events of a block: those of its first frame, and later ones. -/
theorem Ready.upcoming_succ
    (h : e.Ready)
    (n : Nat) :
    ∃ later, e.upcoming (n + 1) = e.upcoming 1 ++ later
      ∧ (∀ event ∈ later, 1 ≤ event.time)
      ∧ e.tick.upcoming n = later.map fun event => event.sooner 1 := by
  have hsettings : e.tick.settings = e.settings := settings_elapse h.still 1
  have hclock : e.tick.clock = e.clock + 1 := clock_elapse h.still 1
  have hwaiting : e.tick.queue.waiting
      = e.queue.waiting.dropWhile fun event => event.time < e.clock + 1 :=
    waiting_elapse h.still 1
  have hstill : ¬ 0.0 < e.tick.settings.drift := by
    rw [hsettings]
    exact h.still
  let left := e.queue.waiting.dropWhile fun event => event.time < e.clock + 1
  have hsplit : (e.queue.waiting.takeWhile fun event => event.time < e.clock + (n + 1))
      = (e.queue.waiting.takeWhile fun event => event.time < e.clock + 1)
        ++ left.takeWhile fun event => event.time < e.clock + (n + 1) := by
    conv_lhs =>
      rw [← List.takeWhile_append_dropWhile
        (p := fun event : Event => decide (event.time < e.clock + 1)) (l := e.queue.waiting)]
    apply List.takeWhile_append_of_pos
    intro event hmem
    have hdue : event.time < e.clock + 1 := by
      simpa using List.mem_takeWhile_imp hmem
    simp only [decide_eq_true_eq]
    omega
  refine ⟨(left.takeWhile fun event => event.time < e.clock + (n + 1)).map e.localEvent,
    ?_, ?_, ?_⟩
  · rw [upcoming_eq, upcoming_eq, hsplit, List.map_append]
  · intro event hmem
    obtain ⟨waiting, hwaiting, rfl⟩ := List.mem_map.1 hmem
    have hle := EventQueue.le_time_of_mem_dropWhile h.sorted
      ((List.takeWhile_prefix _).mem hwaiting)
    show 1 ≤ waiting.time - e.clock
    omega
  · rw [upcoming_eq, hwaiting, hclock, List.map_map]
    have htime : e.clock + 1 + n = e.clock + (n + 1) := by
      omega
    rw [htime]
    apply List.map_congr_left
    intro event _
    show event.moveTo (event.time - e.tick.clock) = event.moveTo (event.time - e.clock - 1)
    rw [hclock, Nat.sub_sub]

/--
The first frame of a block may be cut off: a tick and a block of the rest perform
what the block performs, after the first frame has passed.
-/
theorem Ready.matches_performed
    (h : e.Ready)
    (hgentle : e.GentleBlock (n + 1)) :
    e.GentleBlock 1 ∧ e.tick.GentleBlock n
      ∧ Matches (Rule.frame e.settings) (e.performed (n + 1)) (e.tick.performed n) := by
  obtain ⟨later, hupcoming, htimes, hnext⟩ := h.upcoming_succ n
  have hstill : ¬ 0.0 < e.tick.settings.drift := by
    have hsettings : e.tick.settings = e.settings := settings_elapse h.still 1
    rw [hsettings]
    exact h.still
  have horder := h.inOrder (n + 1)
  unfold GentleBlock at hgentle
  rw [hupcoming] at hgentle
  obtain ⟨hearly, hlater⟩ := gentleAll_append hgentle
  -- what is due at the first frame does not look at the length of the block
  have hopened : Matches Rule.stay (e.opened (n + 1)) (e.opened 1) :=
    (matches_opened h.still (n + 1)).of_both (matches_opened h.still 1)
  obtain ⟨hfirst, hgentle'⟩ := hopened.performSame horder hearly
  let first := (e.upcoming 1).foldl Engine.perform (e.opened (n + 1))
  have hsettings : first.settings = e.settings :=
    (congrArg Background.settings (background_performAll _ _)).trans
      (matches_opened h.still (n + 1)).settings
  have hframe : Matches (Rule.frame e.settings) first e.tick := by
    rw [← hsettings]
    exact (matches_frame first).trans hfirst.frame
  have hcut : Matches (Rule.frame e.settings) first (e.tick.opened n) :=
    hframe.trans (matches_opened hstill n)
  obtain ⟨hrest, hgentle''⟩ :=
    hcut.performAll (Rule.passes_frame e.settings) (horder.performAll hearly) hlater htimes
  refine ⟨hgentle', ?_, ?_⟩
  · unfold GentleBlock
    rw [hnext]
    exact hgentle''
  · have hall : e.performed (n + 1) = later.foldl Engine.perform first := by
      rw [performed_eq]
      show (e.upcoming (n + 1)).foldl _ _ = _
      rw [hupcoming, List.foldl_append]
    have hticked : e.tick.performed n
        = (later.map fun event => event.sooner 1).foldl Engine.perform (e.tick.opened n) := by
      rw [performed_eq, ← hnext]
      rfl
    rw [hall, hticked]
    exact hrest

end Cutting

section Pending

variable {e : Engine} {event : Event} {n : Nat}

/-- All pending changes of the voices that play are within the next `n` frames. -/
def PendingWithin (e : Engine) (n : Nat) : Prop :=
  ∀ v ∈ e.bank.active, ∀ role, ∀ c ∈ (v.toControls.get role).pending, c.offset < n

theorem PendingWithin.perform
    (h : e.PendingWithin n)
    (hfits : e.bank.count ≤ e.bank.voices.length)
    (hgentle : e.Gentle event)
    (htime : event.time < n) :
    (Engine.perform e event).PendingWithin n := by
  intro w hw role c hc
  have hcount : (Engine.perform e event).bank.count = e.bank.count :=
    congrArg Background.count (background_perform e event)
  obtain ⟨id, hid, hget⟩ := Bank.mem_active_iff.1 hw
  rw [hcount] at hid
  have hv : e.bank.voices[id]? = some e.bank.voices[id] :=
    List.getElem?_eq_getElem (by omega)
  rw [voices_perform hgentle.1, answered, Bank.getElem?_mapActiveIdx, hv, Option.map_some,
    if_pos hid, Option.some.injEq] at hget
  subst hget
  rw [Answer.take_eq, Controls.get_scheduleAll] at hc
  rcases Ramp.offset_of_mem_insertAll hc with ⟨d, hd, heq⟩ | ⟨d, hd, heq⟩
  · rw [heq, hgentle.offset_of_mem hid hv hd]
    exact htime
  · rw [heq]
    exact h _ (Bank.mem_active_iff.2 ⟨id, hid, hv⟩) role d hd

theorem PendingWithin.performAll
    {events : List Event}
    (h : e.PendingWithin n)
    (horder : e.InOrder)
    (hgentle : e.GentleAll events)
    (htimes : ∀ event ∈ events, event.time < n) :
    (events.foldl Engine.perform e).PendingWithin n := by
  induction events generalizing e with
  | nil => exact h
  | cons event events ih =>
      have hstep := h.perform horder.fits hgentle.1 (htimes event List.mem_cons_self)
      exact ih hstep (horder.perform hgentle.1) hgentle.2
        fun event hmem => htimes event (List.mem_cons_of_mem _ hmem)

/-- A gentle block schedules nothing beyond its end. -/
theorem Ready.pendingWithin
    (h : e.Ready)
    (hn : 0 < n)
    (hgentle : e.GentleBlock n) :
    (e.performed n).PendingWithin n := by
  have hopened : (e.opened n).PendingWithin n := by
    intro v hv role c hc
    rw [h.settled_opened n v hv role] at hc
    cases hc
  rw [performed_eq]
  exact hopened.performAll (h.inOrder n) hgentle fun _ hmem =>
    time_lt_of_mem_upcoming hn hmem

theorem pending_frame (s : Settings) (role : Role) (r : Ramp) :
    (Rule.frame s role r).pending = Ramp.passed r.pending := by
  unfold Rule.frame
  split
  · rfl
  · rfl

/-- The voices after a block. -/
theorem getElem?_voices_elapse (e : Engine) (n id : Nat) :
    (e.elapse n).bank.voices[id]?
      = (e.performed n).bank.voices[id]?.map fun v =>
          if id < (e.performed n).bank.count then
            v.mapControls (Controls.apply (Rule.frame (e.performed n).settings))^[n]
          else v := by
  unfold elapse
  rw [iterate_frame]
  exact Bank.getElem?_mapActiveIdx _ _ id

/-- After a gentle block the engine is ready for the next one. -/
theorem Ready.elapse
    (h : e.Ready)
    (hn : 0 < n)
    (hgentle : e.GentleBlock n) :
    (e.elapse n).Ready := by
  have hwithin := h.pendingWithin hn hgentle
  have horder := (h.inOrder n).performAll hgentle
  have hperformed := background_performed h.still n
  have helapsed := background_elapse h.still n
  have hcount : (e.elapse n).bank.count = (e.performed n).bank.count :=
    (congrArg Background.count helapsed).trans (congrArg Background.count hperformed).symm
  have hlength : (e.elapse n).bank.voices.length = (e.performed n).bank.voices.length :=
    (congrArg Background.capacity helapsed).trans (congrArg Background.capacity hperformed).symm
  constructor
  · rw [settings_elapse h.still]
    exact h.still
  · rw [hcount, hlength]
    exact horder.fits
  · intro w hw role
    obtain ⟨id, hid, hget⟩ := Bank.mem_active_iff.1 hw
    rw [hcount] at hid
    rw [getElem?_voices_elapse] at hget
    obtain ⟨v, hv, rfl⟩ := Option.map_eq_some_iff.1 hget
    rw [if_pos hid]
    show (((Controls.apply _)^[n] v.toControls).get role).pending = []
    rw [Controls.get_iterate_apply]
    exact Ramp.pending_iterate (pending_frame _ role)
      (hwithin v (Bank.mem_active_iff.2 ⟨id, hid, hv⟩) role)
  · rw [waiting_elapse h.still]
    exact h.sorted.sublist (List.dropWhile_suffix _).sublist

end Pending

section Ticks

variable {e f : Engine} {n : Nat}

theorem Abreast.refl (e : Engine) :
    Abreast e e :=
  ⟨Matches.refl e, rfl, rfl⟩

theorem Abreast.symm
    (h : Abreast e f) :
    Abreast f e :=
  ⟨h.toMatches.symm, h.clock.symm, h.waiting.symm⟩

theorem Abreast.trans
    {g : Engine}
    (h : Abreast e f)
    (h' : Abreast f g) :
    Abreast e g :=
  ⟨h.toMatches.trans h'.toMatches, h'.clock.trans h.clock, h'.waiting.trans h.waiting⟩

/-- Engines that are abreast perform the same block, gentle on both. -/
theorem Abreast.performed
    (h : Abreast e f)
    (hready : e.Ready)
    (hgentle : e.GentleBlock n) :
    Matches Rule.stay (e.performed n) (f.performed n) ∧ f.GentleBlock n := by
  have hstill : ¬ 0.0 < f.settings.drift := by
    rw [h.settings]
    exact hready.still
  have hopened : Matches Rule.stay (e.opened n) (f.opened n) :=
    ((matches_opened hready.still n).symm.trans h.toMatches).trans (matches_opened hstill n)
  have hupcoming : f.upcoming n = e.upcoming n := by
    have hlocal : f.localEvent = e.localEvent := by
      funext event
      show event.moveTo (event.time - f.clock) = event.moveTo (event.time - e.clock)
      rw [h.clock]
    rw [upcoming_eq, upcoming_eq, h.waiting, h.clock, hlocal]
  obtain ⟨hmatch, hgentle'⟩ := hopened.performSame (hready.inOrder n) hgentle
  rw [← hupcoming] at hgentle'
  refine ⟨?_, hgentle'⟩
  rw [performed_eq, performed_eq]
  show Matches Rule.stay ((e.upcoming n).foldl _ _) ((f.upcoming n).foldl _ _)
  rw [hupcoming]
  exact hmatch

/-- They stay abreast. -/
theorem Abreast.elapse
    (h : Abreast e f)
    (hready : e.Ready)
    (hgentle : e.GentleBlock n) :
    Abreast (e.elapse n) (f.elapse n) := by
  have hstill : ¬ 0.0 < f.settings.drift := by
    rw [h.settings]
    exact hready.still
  have hmatch := (h.performed hready hgentle).1
  constructor
  · exact hmatch.iterate_frame n
  · rw [clock_elapse hready.still, clock_elapse hstill, h.clock]
  · rw [waiting_elapse hready.still, waiting_elapse hstill, h.waiting, h.clock]

/-- Matching engines are heard alike. -/
theorem Matches.heard_frame
    (h : Matches Rule.stay e f)
    (id : Nat) (s : Stream) (n : Nat) :
    heard Engine.frame f id s n = heard Engine.frame e id s n := by
  unfold heard
  apply List.map_congr_left
  intro k _
  exact (h.iterate_frame (k + 1)).level id s

/-- Whether each of the next ticks is gentle. -/
def GentleTicks (e : Engine) (n : Nat) : Prop :=
  ∀ k < n, (tick^[k] e).GentleBlock 1

/-- Cutting off the first frame of a block makes no difference. -/
theorem Ready.elapse_succ
    (h : e.Ready)
    (hgentle : e.GentleBlock (n + 1)) :
    Abreast (e.elapse (n + 1)) (e.tick.elapse n)
      ∧ ∀ id s, heard Engine.frame (e.performed (n + 1)) id s (n + 1)
          = e.tick.level id s :: heard Engine.frame (e.tick.performed n) id s n := by
  obtain ⟨hfirst, hrest, hcut⟩ := h.matches_performed hgentle
  have hready : e.tick.Ready := h.elapse Nat.one_pos hfirst
  have hclock : e.tick.clock = e.clock + 1 := clock_elapse h.still 1
  have hwaiting : e.tick.queue.waiting
      = e.queue.waiting.dropWhile fun event => event.time < e.clock + 1 :=
    waiting_elapse h.still 1
  have hsettings : (e.performed (n + 1)).settings = e.settings :=
    settings_performed h.still (n + 1)
  have hframe : Matches (Rule.frame e.settings) (e.performed (n + 1))
      (e.performed (n + 1)).frame := by
    rw [← hsettings]
    exact matches_frame _
  have hmatch : Matches Rule.stay (e.performed (n + 1)).frame (e.tick.performed n) :=
    hframe.of_both hcut
  constructor
  · constructor
    · exact hmatch.iterate_frame n
    · rw [clock_elapse h.still, clock_elapse hready.still, hclock]
      omega
    · rw [waiting_elapse h.still, waiting_elapse hready.still, hclock, hwaiting]
      have htime : e.clock + 1 + n = e.clock + (n + 1) := by
        omega
      rw [htime]
      conv_rhs =>
        rw [← List.takeWhile_append_dropWhile
          (p := fun event : Event => decide (event.time < e.clock + 1)) (l := e.queue.waiting)]
      refine (List.dropWhile_append_of_pos ?_).symm
      intro event hmem
      have hdue : event.time < e.clock + 1 := by
        simpa using List.mem_takeWhile_imp hmem
      simp only [decide_eq_true_eq]
      omega
  · intro id s
    have hlevel : e.tick.level id s = (e.performed (n + 1)).frame.level id s := by
      calc
        e.tick.level id s
            = (e.tick.opened n).level id s :=
              ((matches_opened hready.still n).level id s).symm
        _ = (e.tick.performed n).level id s :=
              (level_performAll hrest id s).symm
        _ = (e.performed (n + 1)).frame.level id s :=
              hmatch.level id s
    rw [heard_succ, hlevel, hmatch.heard_frame]

/--
A gentle block of an engine that is ready for it is as many ticks as it has
frames: the engine ends abreast, and its frames are heard as the ticks are.
-/
theorem Ready.elapse_eq_ticks
    (h : e.Ready)
    (hn : 1 ≤ n)
    (hgentle : e.GentleBlock n) :
    Abreast (e.elapse n) (tick^[n] e)
      ∧ (∀ id s, heard Engine.frame (e.performed n) id s n = heard tick e id s n)
      ∧ e.GentleTicks n := by
  induction n, hn using Nat.le_induction generalizing e with
  | base =>
      refine ⟨Abreast.refl _, ?_, ?_⟩
      · intro id s
        rw [heard_succ, heard_succ, heard_zero, heard_zero]
        rfl
      · intro k hk
        obtain rfl : k = 0 := by
          omega
        exact hgentle
  | succ n hn ih =>
      obtain ⟨hfirst, hrest, _⟩ := h.matches_performed hgentle
      obtain ⟨habreast, hheard⟩ := h.elapse_succ hgentle
      have hready : e.tick.Ready := h.elapse Nat.one_pos hfirst
      obtain ⟨habreast', hheard', hticks⟩ := ih hready hrest
      refine ⟨habreast.trans habreast', ?_, ?_⟩
      · intro id s
        rw [hheard, hheard', heard_succ tick e]
      · intro k hk
        cases k with
        | zero => exact hfirst
        | succ k => exact hticks k (by omega)

/-- Engines that are abreast tick alike. -/
theorem Abreast.ticks
    (h : Abreast e f)
    (hready : e.Ready)
    (hgentle : e.GentleTicks n) :
    Abreast (tick^[n] e) (tick^[n] f)
      ∧ (∀ id s, heard tick f id s n = heard tick e id s n)
      ∧ f.GentleTicks n := by
  induction n generalizing e f with
  | zero =>
      refine ⟨h, ?_, fun _ hk => absurd hk (Nat.not_lt_zero _)⟩
      intro id s
      rw [heard_zero, heard_zero]
  | succ n ih =>
      have hfirst : e.GentleBlock 1 := hgentle 0 (Nat.succ_pos n)
      have hstep : Abreast e.tick f.tick := h.elapse hready hfirst
      have hready' : e.tick.Ready := hready.elapse Nat.one_pos hfirst
      have hrest : e.tick.GentleTicks n := fun k hk => hgentle (k + 1) (by omega)
      obtain ⟨habreast, hheard, hticks⟩ := ih hstep hready' hrest
      rw [Function.iterate_succ_apply, Function.iterate_succ_apply]
      refine ⟨habreast, ?_, ?_⟩
      · intro id s
        rw [heard_succ, heard_succ, hstep.level, hheard]
      · intro k hk
        cases k with
        | zero => exact (h.performed hready hfirst).2
        | succ k => exact hticks k (by omega)

end Ticks

end Engine
end Polyphony
