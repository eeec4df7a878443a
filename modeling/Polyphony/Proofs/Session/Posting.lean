import Polyphony.Proofs.Engine.Setup
import Polyphony.Session.Basic

/-!
# Settings on their way to the engine

A host has settings accepted while the engine processes blocks, in whatever order
the two come.  What the host was told is accepted is what the next block applies.

**Ledger.**  A ledger follows a session and keeps the settings that were accepted
since the engine last processed a block, even one without frames.  It reads them off
the answers that the host gets, not off the mailbox.

**Results.**
* `Kept.record`: whatever is done next, the mailbox holds what the ledger holds.
* `settings_delivered`: a block applies the last settings of the ledger and no
  others, afterwards the engine has the settings of its host, and what is refused
  changes nothing.
-/

namespace Polyphony

/-- What an engine of so many voices applies of sound settings, tuned as it was before. -/
def Settings.appliedBy (s : Settings) (capacity : Nat) (tuning : Float32) : Settings :=
  { s with
    voices := min s.voices capacity
    masterTune := if 220.0 ≤ s.masterTune ∧ s.masterTune ≤ 880.0 then s.masterTune else tuning }

/-- Of sound settings only the number of voices and the tuning are not applied as they are. -/
theorem Engine.admitted_of_sound
    {next : Settings}
    (h : next.Sound)
    (e : Engine) :
    e.admitted next = next.appliedBy e.capacity e.settings.masterTune := by
  unfold Engine.admitted Engine.admittedTuning Settings.appliedBy
  dsimp only
  rw [Settings.repaired_of_sound h]
  congr 1
  unfold Tuning.masterOffset Tuning.lowestTuning Tuning.highestTuning
  split <;> simp

/-- What is done to a session while nothing is staged on its engine. -/
inductive Action
  /-- The host asks for settings. -/
  | configure (next : Settings)
  /-- The engine is operated, past its settings. -/
  | operate (op : Operation)

/-- Whether an action reaches the settings of the engine past its mailbox. -/
def Action.isDirect : Action → Bool
  | .configure _ => false
  | .operate op => op.isDirect

/-- A session, with the settings accepted since its engine last processed a block. -/
structure Ledger where
  session : Session
  fresh : List Settings := []

namespace Ledger

/-- The settings that are still fresh after an operation. -/
def freshAfter (fresh : List Settings) : Operation → List Settings
  | .process _ _ => []
  | _ => fresh

/-- The ledger after one more action; only settings that are accepted are noted. -/
def record (l : Ledger) : Action → Ledger
  | .configure next =>
      match l.session.configure next with
      | .ok _ session => { session, fresh := l.fresh ++ [next] }
      | .error _ session => { l with session }
  | .operate op =>
      { session := l.session.withEngine (l.session.engine.operate op)
        fresh := freshAfter l.fresh op }

/-- The ledger of a session to which one thing is done after the other. -/
def after (s : Session) (actions : List Action) : Ledger :=
  actions.foldl record { session := s }

/-- The engine once the newest of some settings have been applied, with none left to wait. -/
def applying (e : Engine) (fresh : List Settings) : Engine :=
  match fresh.getLast? with
  | some next => e.taken.adopt next
  | none => e

section Keeping

/-- What every action keeps. -/
structure Kept (size : Nat) (l : Ledger) : Prop where
  capacity : l.session.engine.capacity = size
  mailbox : l.session.engine.mailbox = some { waiting := l.fresh }
  staged : l.session.engine.staged = none
  sound : ∀ next ∈ l.fresh, next.Sound
  newest : ∀ next, l.fresh.getLast? = some next → next = l.session.settings
  applied : l.fresh = [] →
    l.session.engine.settings
      = l.session.settings.appliedBy size l.session.engine.settings.masterTune

variable {size : Nat} {l : Ledger}

/-- Settings are accepted if they are without fault and find room. -/
theorem Kept.configure_eq
    (h : l.Kept size)
    (next : Settings) :
    l.session.configure next =
      match next.fault? with
      | some fault => .error fault l.session
      | none =>
          if l.fresh.length < 8 then
            .ok () { l.session with
              engine := { l.session.engine with mailbox := some { waiting := l.fresh ++ [next] } }
              settings := next }
          else .error .mailboxFull l.session := by
  have hsame :
      { l.session with
        engine := { l.session.engine with mailbox := some { waiting := l.fresh } } }
        = l.session := by
    rw [← h.mailbox]
  unfold Session.configure Engine.post? Mailbox.post mailboxCapacity
  rw [h.mailbox]
  cases hfault : next.fault? with
  | some fault => exact congrArg (Attempt.error fault) hsame
  | none =>
      by_cases hroom : 8 ≤ l.fresh.length
      · simpa [hroom, Attempt.within, Nat.not_lt.2 hroom] using hsame
      · simp [hroom, Attempt.within, Nat.lt_of_not_le hroom]

/-- What waits for the engine is the newest of the ledger. -/
theorem Kept.awaited?_eq
    (h : l.Kept size) :
    l.session.engine.awaited? = l.fresh.getLast? := by
  unfold Engine.awaited? Mailbox.newest?
  rw [h.mailbox, h.staged]
  exact Option.or_none

theorem Kept.adoptAwaited_eq
    (h : l.Kept size) :
    l.session.engine.adoptAwaited = applying l.session.engine l.fresh :=
  congrArg
    (fun waiting : Option Settings =>
      match waiting with
      | some next => l.session.engine.taken.adopt next
      | none => l.session.engine)
    h.awaited?_eq

/-- Once the newest settings are applied, the mailbox is empty. -/
theorem Kept.setup_applying
    (h : l.Kept size) :
    (applying l.session.engine l.fresh).setup
      = { settings := l.session.settings.appliedBy size l.session.engine.settings.masterTune
          mailbox := some .empty
          staged := none
          capacity := size } := by
  unfold applying
  split
  case h_1 next hnext =>
    have hsound : next.Sound := h.sound next (List.mem_of_getLast? hnext)
    have hcapacity : l.session.engine.taken.capacity = size := h.capacity
    have hadmitted :
        l.session.engine.taken.admitted next
          = l.session.settings.appliedBy size l.session.engine.settings.masterTune := by
      rw [Engine.admitted_of_sound hsound, hcapacity, h.newest next hnext]
      rfl
    rw [Engine.setup_adopt, hadmitted]
    unfold Engine.setup Engine.background Background.setup
    rw [hcapacity]
    simp [Engine.taken, h.mailbox, Mailbox.collected]
  case h_2 hnone =>
    have hnil : l.fresh = [] := List.getLast?_eq_none_iff.1 hnone
    unfold Engine.setup Engine.background Background.setup
    rw [← h.applied hnil, h.mailbox, h.staged, h.capacity, hnil]
    rfl

/-- What is left to the next block when the engine has processed one. -/
theorem Kept.setup_process
    (h : l.Kept size)
    (frames : Nat) (out : Buffer) :
    (l.session.engine.process frames out).1.setup
      = { settings := l.session.settings.appliedBy size l.session.engine.settings.masterTune
          mailbox := some .empty
          staged := none
          capacity := size } := by
  rw [Engine.setup_process, h.adoptAwaited_eq, h.setup_applying]

/-- The tuning that was in force before matters only if the one asked for is out of range. -/
theorem appliedBy_appliedBy (s : Settings) (capacity : Nat) (tuning : Float32) :
    s.appliedBy capacity (s.appliedBy capacity tuning).masterTune = s.appliedBy capacity tuning := by
  unfold Settings.appliedBy
  dsimp only
  split <;> rfl

/-- A ledger whose engine has the setup of one that keeps it. -/
theorem Kept.congr
    (h : l.Kept size)
    {engine : Engine}
    (hsetup : engine.setup = l.session.engine.setup) :
    Kept size { l with session := l.session.withEngine engine } := by
  have hsettings : engine.settings = l.session.engine.settings := congrArg Setup.settings hsetup
  have hmailbox : engine.mailbox = l.session.engine.mailbox := congrArg Setup.mailbox hsetup
  have hstaged : engine.staged = l.session.engine.staged := congrArg Setup.staged hsetup
  have hcapacity : engine.capacity = l.session.engine.capacity := congrArg Setup.capacity hsetup
  refine ⟨hcapacity.trans h.capacity, hmailbox.trans h.mailbox, hstaged.trans h.staged, h.sound,
    h.newest, fun hnil => ?_⟩
  show engine.settings = l.session.settings.appliedBy size engine.settings.masterTune
  rw [hsettings]
  exact h.applied hnil

theorem Kept.process
    (h : l.Kept size)
    (frames : Nat) (out : Buffer) :
    (l.record (.operate (.process frames out))).Kept size := by
  have hsetup := h.setup_process frames out
  have hsettings := congrArg Setup.settings hsetup
  refine ⟨congrArg Setup.capacity hsetup, congrArg Setup.mailbox hsetup, congrArg Setup.staged hsetup,
    ?_, ?_, fun _ => ?_⟩
  · intro next hnext
    cases hnext
  · intro next hnext
    cases hnext
  · show (l.session.engine.process frames out).1.settings
      = l.session.settings.appliedBy size (l.session.engine.process frames out).1.settings.masterTune
    have hsame : (l.session.engine.process frames out).1.settings
        = l.session.settings.appliedBy size l.session.engine.settings.masterTune := hsettings
    rw [hsame, appliedBy_appliedBy]

theorem Kept.configure
    (h : l.Kept size)
    (next : Settings) :
    (l.record (.configure next)).Kept size := by
  unfold record
  dsimp only
  rw [h.configure_eq]
  cases hfault : next.fault? with
  | some fault => exact h
  | none =>
      by_cases hroom : l.fresh.length < 8
      case neg =>
        simp only [hroom, if_false]
        exact h
      case pos =>
        simp only [hroom, if_true]
        refine ⟨h.capacity, rfl, h.staged, ?_, ?_, fun hnil => ?_⟩
        · intro s hs
          rcases List.mem_append.1 hs with hs | hs
          · exact h.sound s hs
          · obtain rfl := List.mem_singleton.1 hs
            exact Settings.fault?_eq_none_iff.1 hfault
        · intro s hs
          rw [List.getLast?_concat] at hs
          exact (Option.some.inj hs).symm
        · exact absurd hnil (List.append_ne_nil_of_right_ne_nil _ (List.cons_ne_nil _ _))

/-- An action that reaches settings by the mailbox only keeps the ledger. -/
theorem Kept.record
    (h : l.Kept size)
    {a : Action}
    (hdirect : a.isDirect = false) :
    (l.record a).Kept size := by
  cases a with
  | configure next => exact h.configure next
  | operate op =>
      cases op with
      | process frames out => exact h.process frames out
      | attachMailbox => cases hdirect
      | post s => cases hdirect
      | stage s => cases hdirect
      | push event => exact h.congr (Engine.setup_operate _ rfl fun _ _ => nofun)
      | setSampleRate rate => exact h.congr (Engine.setup_operate _ rfl fun _ _ => nofun)
      | setTemperament t => exact h.congr (Engine.setup_operate _ rfl fun _ _ => nofun)
      | setClock time => exact h.congr (Engine.setup_operate _ rfl fun _ _ => nofun)
      | silence => exact h.congr (Engine.setup_operate _ rfl fun _ _ => nofun)
      | reset => exact h.congr (Engine.setup_operate _ rfl fun _ _ => nofun)

theorem Kept.foldl_record
    (h : l.Kept size)
    {actions : List Action}
    (hactions : ∀ a ∈ actions, a.isDirect = false) :
    (actions.foldl Ledger.record l).Kept size := by
  induction actions generalizing l with
  | nil => exact h
  | cons a actions ih =>
      exact ih (h.record (hactions a List.mem_cons_self))
        fun b hb => hactions b (List.mem_cons_of_mem _ hb)

/-- The ledger of a session that has just begun. -/
theorem kept_start
    {capacity : Nat} {rate : Float32} {queue : EventQueue} {library : Library} {s : Session}
    (h : Session.start capacity rate queue library = .ok s) :
    Kept capacity { session := s } := by
  obtain ⟨e, hbuild, rfl⟩ := Session.exists_build_of_start h
  rw [Engine.eq_idle_of_build hbuild]
  have hcapacity : (Engine.idle capacity rate queue {} library).capacity = capacity := by
    simp [Engine.idle, Engine.distributeGlides, Engine.capacity, Bank.capacity, Bank.mapAll,
      Bank.idle]
  have hdefault : ({} : Settings) = ({} : Settings).appliedBy capacity 440.0 := by
    have hrange : (220.0 : Float32) ≤ 440.0 ∧ (440.0 : Float32) ≤ 880.0 := by
      decide
    unfold Settings.appliedBy
    rw [Nat.zero_min]
    exact (congrArg (fun hz => ({ masterTune := hz } : Settings)) (if_pos hrange)).symm
  refine ⟨hcapacity, rfl, rfl, ?_, ?_, fun _ => hdefault⟩
  · intro next hnext
    cases hnext
  · intro next hnext
    cases hnext

/-- What the next block applies, what the engine then has, and what is refused. -/
structure Delivered (l : Ledger) : Prop where
  /-- A block applies the newest of the fresh settings, or none if there are none. -/
  applies : ∀ frames out,
    l.session.engine.process frames out = (applying l.session.engine l.fresh).process frames out
  /-- It applies nothing else, since nothing else waits. -/
  alone : (applying l.session.engine l.fresh).awaited? = none
  /-- Afterwards the engine has the settings of its host, as far as it can. -/
  agrees : ∀ frames out, (l.session.engine.process frames out).1.settings
    = l.session.settings.appliedBy l.session.engine.capacity l.session.engine.settings.masterTune
  /-- Settings are accepted if they are without fault and fewer than eight are fresh. -/
  configure_eq : ∀ next, l.session.configure next =
    match next.fault? with
    | some fault => .error fault l.session
    | none =>
        if l.fresh.length < 8 then
          .ok () { l.session with
            engine := { l.session.engine with mailbox := some { waiting := l.fresh ++ [next] } }
            settings := next }
        else .error .mailboxFull l.session
  /-- Settings that are refused leave the host and the mailbox as they are. -/
  refused : ∀ next fault after, l.session.configure next = .error fault after →
    l.record (.configure next) = l

theorem Kept.delivered
    (h : l.Kept size) :
    l.Delivered := by
  have halone : (applying l.session.engine l.fresh).awaited? = none := by
    have hsetup := h.setup_applying
    have hmailbox : (applying l.session.engine l.fresh).mailbox = some .empty :=
      congrArg Setup.mailbox hsetup
    have hstaged : (applying l.session.engine l.fresh).staged = none :=
      congrArg Setup.staged hsetup
    unfold Engine.awaited?
    rw [hmailbox, hstaged]
    rfl
  refine ⟨fun frames out => ?_, halone, fun frames out => ?_, h.configure_eq, ?_⟩
  · have hsettled :
        (applying l.session.engine l.fresh).adoptAwaited = applying l.session.engine l.fresh := by
      unfold Engine.adoptAwaited
      rw [halone]
    unfold Engine.process
    rw [hsettled, h.adoptAwaited_eq]
  · rw [h.capacity]
    exact congrArg Setup.settings (h.setup_process frames out)
  · intro next fault after hrefused
    unfold Ledger.record
    dsimp only
    rw [hrefused, l.session.harmless_configure next fault after hrefused]

/--
However a host configures a session while its engine is operated, a block applies
the settings accepted last since the block before and no others; after any block
the engine has the settings of its host, but for voices that there are not and a
tuning out of range; and settings are refused only for a fault or for want of room,
which leaves everything as it was.
-/
theorem settings_delivered
    {capacity : Nat} {rate : Float32} {queue : EventQueue} {library : Library} {s : Session}
    (hstart : Session.start capacity rate queue library = .ok s)
    {actions : List Action}
    (hactions : ∀ a ∈ actions, a.isDirect = false) :
    (after s actions).Delivered :=
  ((kept_start hstart).foldl_record hactions).delivered

/-- Two requests, the second for too many voices and a tuning out of range, and one at fault. -/
def threeRequests : List Action :=
  [.configure { voices := 1, masterTune := 442.0 }, .operate (.process 0 (Buffer.silent 2 0)),
    .configure { voices := 1 }, .configure { voices := 5, masterTune := 1000.0 },
    .configure { glide := -1.0 }]

/-- The block applies the second request, without the voices and the tuning that there are not. -/
theorem delivered_threeRequests :
    ∃ s, Session.start 2 48000.0 (EventQueue.empty 8) .plain = .ok s
      ∧ (∀ a ∈ threeRequests, a.isDirect = false)
      ∧ (after s threeRequests).fresh = [{ voices := 1 }, { voices := 5, masterTune := 1000.0 }]
      ∧ ((after s threeRequests).session.engine.process 0 (Buffer.silent 2 0)).1.settings
          = { voices := 2, masterTune := 442.0 }
      ∧ ((after s threeRequests).record (.configure { glide := -1.0 })) = after s threeRequests := by
  have hdirect : ∀ a ∈ threeRequests, a.isDirect = false := by
    simp [threeRequests, Action.isDirect, Operation.isDirect]
  obtain ⟨s, hstart⟩ : ∃ s, Session.start 2 48000.0 (EventQueue.empty 8) .plain = .ok s := ⟨_, rfl⟩
  obtain ⟨_, _, hagrees, hconfigure, hrefused⟩ := settings_delivered hstart hdirect
  cases hstart
  refine ⟨_, rfl, hdirect, by decide +kernel, ?_, ?_⟩
  · rw [hagrees]
    decide +kernel
  · have hfault : ({ glide := -1.0 } : Settings).fault? = some (.negative .glide) := by
      decide +kernel
    exact hrefused _ (.negative .glide) _ (by rw [hconfigure, hfault])

end Keeping

end Ledger
end Polyphony
