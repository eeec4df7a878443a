import Polyphony.Voice.Basic
import Polyphony.Proofs.Ramp.Frames

/-!
# What an event asks of a voice

Whatever happens to a voice while events are performed is one of a few answers:
it rests, starts, is stolen, is released, is kept by the pedal, moves with a
touch, or one of its ramps is adjusted.  An answer changes the tenancy at once
and schedules changes for the ramps, and nothing else.

**Roles.**  The eleven ramps are addressed by what they are for, so that what is
true of all of them is said once.

**Results.**
* `Proper.isAt`: what an event may ask of a voice is for the time of the event.
* `take_eq`: a voice takes an answer by a new tenancy and scheduled changes.
* `offset_of_mem_changes`: but for a steal, all changes are at the time of the
  event.
-/

namespace Polyphony

/-- What a ramp of a voice is for. -/
inductive Role
  | pitch
  | pitchBend
  | gate
  | amp
  | velocity
  | notePressure
  | channelPressure
  | mod1
  | mod2
  | mod3
  | drift
deriving DecidableEq

/-- All roles. -/
def Role.all : List Role :=
  [.pitch, .pitchBend, .gate, .amp, .velocity, .notePressure, .channelPressure,
    .mod1, .mod2, .mod3, .drift]

theorem Role.mem_all (role : Role) : role ∈ Role.all := by
  cases role <;> decide

namespace Controls

section Roles

/-- The ramp in a role. -/
def get (c : Controls) : Role → Ramp
  | .pitch => c.pitch
  | .pitchBend => c.pitchBend
  | .gate => c.gate
  | .amp => c.amp
  | .velocity => c.velocity
  | .notePressure => c.notePressure
  | .channelPressure => c.channelPressure
  | .mod1 => c.mod1
  | .mod2 => c.mod2
  | .mod3 => c.mod3
  | .drift => c.drift

/-- Controls with a ramp for every role. -/
def ofRoles (f : Role → Ramp) : Controls where
  pitch := f .pitch
  pitchBend := f .pitchBend
  gate := f .gate
  amp := f .amp
  velocity := f .velocity
  notePressure := f .notePressure
  channelPressure := f .channelPressure
  mod1 := f .mod1
  mod2 := f .mod2
  mod3 := f .mod3
  drift := f .drift

@[simp] theorem get_ofRoles (f : Role → Ramp) (role : Role) :
    (ofRoles f).get role = f role := by
  cases role <;> rfl

/-- Controls are determined by their ramps. -/
theorem ext_get
    {c d : Controls}
    (h : ∀ role, c.get role = d.get role) :
    c = d := by
  cases c
  cases d
  simp only [Controls.mk.injEq]
  exact ⟨h .pitch, h .pitchBend, h .gate, h .amp, h .velocity, h .notePressure,
    h .channelPressure, h .mod1, h .mod2, h .mod3, h .drift⟩

@[simp] theorem get_map (f : Ramp → Ramp) (c : Controls) (role : Role) :
    (c.map f).get role = f (c.get role) := by
  cases role <;> rfl

/-- Schedules several changes in every role. -/
def scheduleAll (c : Controls) (changes : Role → List Change) : Controls :=
  ofRoles fun role => (c.get role).scheduleAll (changes role)

@[simp] theorem get_scheduleAll
    (c : Controls) (changes : Role → List Change) (role : Role) :
    (c.scheduleAll changes).get role = (c.get role).scheduleAll (changes role) := by
  exact get_ofRoles _ role

/-- Schedules one change in one role. -/
def adjust (c : Controls) (role : Role) (change : Change) : Controls :=
  c.scheduleAll fun r => if r = role then [change] else []

end Roles

end Controls

/-- What an event asks of a voice. -/
inductive Answer
  /-- Nothing. -/
  | rest
  /-- To start the note of an event. -/
  | start (event : Event)
  /-- To be taken over for the note of an event. -/
  | steal (event : Event) (retrigger : Bool)
  /-- To end its note. -/
  | release (event : Event)
  /-- To leave its note to the pedal. -/
  | keep
  /-- To follow a touch. -/
  | move (event : Event)
  /-- To adjust one of its ramps. -/
  | adjust (role : Role) (change : Change)

namespace Voice

/-- Takes an answer. -/
def take (t : Temperament) (v : Voice) : Answer → Voice
  | .rest => v
  | .start event => v.start event t
  | .steal event retrigger => v.steal event t retrigger
  | .release event => v.release event
  | .keep => v.keep
  | .move event => v.move event t
  | .adjust role change => v.mapControls fun c => c.adjust role change

end Voice

namespace Answer

/-- Whether the answer takes the voice away from its note. -/
def isSteal : Answer → Bool
  | .steal _ _ => true
  | _ => false

/-- Whether everything that an answer schedules is for one time. -/
def IsAt (time : Nat) : Answer → Prop
  | .rest => True
  | .start event => event.time = time
  | .steal event _ => event.time = time
  | .release event => event.time = time
  | .keep => True
  | .move event => event.time = time
  | .adjust _ change => change.offset = time

/--
What an event may ask of a voice: all at its time, to leave only a held note to the
pedal, and to adjust neither gate nor velocity.
-/
inductive Proper (event : Event) (tn : Tenancy) : Answer → Prop
  | rest : Proper event tn .rest
  | start : Proper event tn (.start event)
  | steal (note : Event) (retrigger : Bool) (htime : note.time = event.time) :
      Proper event tn (.steal note retrigger)
  | release (note : Event) (htime : note.time = event.time) : Proper event tn (.release note)
  | keep (hheld : tn.phase = .held) : Proper event tn .keep
  | move : Proper event tn (.move event)
  | adjust
      (role : Role) (value : Float32)
      (hgate : role ≠ .gate)
      (hvelocity : role ≠ .velocity) :
      Proper event tn (.adjust role { value, offset := event.time })

/-- Everything that a proper answer schedules is for the time of the event. -/
theorem Proper.isAt
    {event : Event} {tn : Tenancy} {a : Answer}
    (h : a.Proper event tn) :
    a.IsAt event.time := by
  cases h with
  | rest => trivial
  | start => rfl
  | steal note retrigger htime => exact htime
  | release note htime => exact htime
  | keep => trivial
  | move => rfl
  | adjust role value => rfl

/-- The tenancy after an answer. -/
def tenancy (tn : Tenancy) : Answer → Tenancy
  | .rest => tn
  | .start event =>
      { phase := .held, owner := some event.source, channel := event.channel,
        note := event.first, age := 0, originY := event.fourth, event }
  | .steal event _ =>
      { tn with phase := .held, owner := some event.source, channel := event.channel,
                note := event.first, age := 0, event }
  | .release event => { tn with phase := .off, owner := none, age := 0, event }
  | .keep => { tn with phase := .sustained }
  | .move _ => tn
  | .adjust _ _ => tn

/-- A change at the time of an event. -/
def changeAt (event : Event) (value : Float32) : Change :=
  { value, offset := event.time }

/-- The changes that starting a note schedules. -/
def startChanges (t : Temperament) (event : Event) : Role → List Change
  | .pitch => [changeAt event (t.pitch event.first)]
  | .gate => [changeAt event 1.0]
  | .velocity => [changeAt event event.second]
  | _ => []

/-- The changes that the dip before an attack schedules, if there is one. -/
def dipChanges (event : Event) (retrigger : Bool) : Role → List Change
  | .gate => if retrigger then [{ value := 0.0, offset := Voice.attackTime event - 1 }] else []
  | .notePressure =>
      if retrigger then [{ value := 0.0, offset := Voice.attackTime event - 1 }] else []
  | _ => []

/-- The changes that the attack of a stolen voice schedules. -/
def attackChanges (t : Temperament) (event : Event) : Role → List Change
  | .pitch => [{ value := t.pitch event.first, offset := Voice.attackTime event }]
  | .gate => [{ value := 1.0, offset := Voice.attackTime event }]
  | .amp => [{ value := event.second, offset := Voice.attackTime event }]
  | .velocity => [{ value := event.second, offset := Voice.attackTime event }]
  | _ => []

/-- The changes that ending a note schedules. -/
def releaseChanges (event : Event) : Role → List Change
  | .gate => [changeAt event 0.0]
  | .amp => [changeAt event 0.0]
  | .velocity => [changeAt event 0.0]
  | .notePressure => [changeAt event 0.0]
  | .channelPressure => [changeAt event 0.0]
  | _ => []

/-- The changes that following a touch schedules. -/
def moveChanges (t : Temperament) (originY : Float32) (event : Event) : Role → List Change
  | .pitch => [changeAt event (t.pitch event.first)]
  | .amp => [changeAt event event.second]
  | .mod1 => [changeAt event (event.fourth - originY)]
  | .mod2 => [changeAt event (event.third * 2.0 - 1.0)]
  | .mod3 => [changeAt event (event.fourth * 2.0 - 1.0)]
  | _ => []

/-- The changes that an answer schedules. -/
def changes (t : Temperament) (tn : Tenancy) : Answer → Role → List Change
  | .rest => fun _ => []
  | .start event => startChanges t event
  | .steal event retrigger => fun role =>
      dipChanges event retrigger role ++ attackChanges t event role
  | .release event => releaseChanges event
  | .keep => fun _ => []
  | .move event => moveChanges t tn.originY event
  | .adjust role change => fun r => if r = role then [change] else []

/-- A voice takes an answer by a new tenancy and by scheduled changes. -/
theorem take_eq (t : Temperament) (v : Voice) (a : Answer) :
    v.take t a =
      { toTenancy := a.tenancy v.toTenancy
        toControls := v.toControls.scheduleAll (a.changes t v.toTenancy) } := by
  cases a with
  | rest => rfl
  | start event => rfl
  | steal event retrigger => cases retrigger <;> rfl
  | release event => rfl
  | keep => rfl
  | move event => rfl
  | adjust role change => rfl

/-- But for a steal, all changes of an answer to an event are at its time. -/
theorem offset_of_mem_changes
    {t : Temperament} {tn : Tenancy} {a : Answer} {time : Nat} {role : Role} {c : Change}
    (htime : a.IsAt time)
    (hsteal : a.isSteal = false)
    (h : c ∈ a.changes t tn role) :
    c.offset = time := by
  cases a with
  | rest => cases h
  | start event => cases role <;> simp_all [changes, startChanges, changeAt, IsAt]
  | steal event retrigger => cases hsteal
  | release event => cases role <;> simp_all [changes, releaseChanges, changeAt, IsAt]
  | keep => cases h
  | move event => cases role <;> simp_all [changes, moveChanges, changeAt, IsAt]
  | adjust target change =>
      by_cases hrole : role = target
      · have hc : c = change := by
          simpa [changes, hrole] using h
        rw [hc]
        exact htime
      · simp [changes, hrole] at h

end Answer

end Polyphony
