import Polyphony.Event
import Polyphony.Tuning
import Polyphony.Voice.Controls

/-!
# Voices

A voice plays one note at a time.  It knows who holds it, its tenancy, and owns
the ramps that make up its signals.

**Phases.** A voice is off, held by a key that is down, or sustained: its key is
up but the pedal was down.  A voice that is off has no owner; its channel stays,
so that the bend of the channel goes on to move a sound that fades.

**Events.** Starting, moving, releasing and stealing a note change the tenancy
at once and schedule the matching goals at the time of the event, counted from
the beginning of the block.
-/

namespace Polyphony

/-- What a voice is doing. -/
inductive Phase
  /-- Free. -/
  | off
  /-- The key is down. -/
  | held
  /-- The key is up, the pedal keeps the note. -/
  | sustained
deriving DecidableEq, Inhabited

/-- Who holds a voice, and with which note. -/
structure Tenancy where
  /-- What the voice is doing. -/
  phase : Phase := .off
  /-- The source of the note, unless the voice is off. -/
  owner : Option UInt32 := none
  /-- The input channel of the note. -/
  channel : UInt8 := 0
  /-- The note. -/
  note : Float32 := 0.0
  /-- The samples since the note was started, up to the end of the block. -/
  age : Nat := 0
  /-- The y position at which the touch began. -/
  originY : Float32 := 0.0
  /-- The event that the voice is playing. -/
  event : Event := {}
deriving DecidableEq, Inhabited

/-- A voice: a tenancy and the ramps of its signals. -/
structure Voice extends Tenancy, Controls
deriving DecidableEq

namespace Voice

/-- A voice that is off. -/
def idle (sampleRate : Float32) : Voice :=
  { toTenancy := {}, toControls := Controls.resting sampleRate }

/-- Does something to the ramps. -/
def mapControls (f : Controls → Controls) (v : Voice) : Voice :=
  { v with toControls := f v.toControls }

/-- Whether the voice is free. -/
def isOff (v : Voice) : Bool :=
  v.phase == .off

/-- Whether the voice is held or sustained. -/
def isBusy (v : Voice) : Bool :=
  v.phase != .off

/-- Whether the key of `source` holds the voice down. -/
def heldBy (v : Voice) (source : UInt32) : Bool :=
  v.phase == .held && v.owner == some source

/-- Starts the note of an event. -/
def start (v : Voice) (e : Event) (t : Temperament) : Voice :=
  { v with
    phase := .held
    owner := some e.source
    channel := e.channel
    note := e.first
    age := 0
    originY := e.fourth
    event := e
    pitch := v.pitch.schedule (t.pitch e.first) e.time
    gate := v.gate.schedule 1.0 e.time
    velocity := v.velocity.schedule e.second e.time }

/--
Moves a held touch: pitch, amplitude, and three modulations, which are the way
in y since the start, x, and y, the last two from minus one to one.
-/
def move (v : Voice) (e : Event) (t : Temperament) : Voice :=
  { v with
    pitch := v.pitch.schedule (t.pitch e.first) e.time
    amp := v.amp.schedule e.second e.time
    mod1 := v.mod1.schedule (e.fourth - v.originY) e.time
    mod2 := v.mod2.schedule (e.third * 2.0 - 1.0) e.time
    mod3 := v.mod3.schedule (e.fourth * 2.0 - 1.0) e.time }

/-- Releases the note: the voice is off, and all but the pitch goes to zero. -/
def release (v : Voice) (e : Event) : Voice :=
  { v with
    phase := .off
    owner := none
    age := 0
    event := e
    gate := v.gate.schedule 0.0 e.time
    amp := v.amp.schedule 0.0 e.time
    velocity := v.velocity.schedule 0.0 e.time
    notePressure := v.notePressure.schedule 0.0 e.time
    channelPressure := v.channelPressure.schedule 0.0 e.time }

/-- The key went up while the pedal was down: the signals stay. -/
def keep (v : Voice) : Voice :=
  { v with phase := .sustained }

/-- The sample at which a stolen voice attacks: there is one sample before it. -/
def attackTime (e : Event) : Nat :=
  max e.time 1

/-- Drops gate and note pressure to zero for the sample before an attack. -/
def dip (v : Voice) (e : Event) : Voice :=
  { v with
    gate := v.gate.schedule 0.0 (attackTime e - 1)
    notePressure := v.notePressure.schedule 0.0 (attackTime e - 1) }

/--
Takes the voice over for the note of an event.  With `retrigger`, gate and note
pressure dip before the attack, so that an envelope sees a fresh edge.
-/
def steal
    (v : Voice)
    (e : Event)
    (t : Temperament)
    (retrigger : Bool) :
    Voice :=
  let v := if retrigger then v.dip e else v
  { v with
    phase := .held
    owner := some e.source
    channel := e.channel
    note := e.first
    age := 0
    event := e
    pitch := v.pitch.schedule (t.pitch e.first) (attackTime e)
    gate := v.gate.schedule 1.0 (attackTime e)
    amp := v.amp.schedule e.second (attackTime e)
    velocity := v.velocity.schedule e.second (attackTime e) }

/-- Forgets the tenancy; the signals stay. -/
def vacate (v : Voice) : Voice :=
  { v with toTenancy := {} }

/-- Drops the pending changes of every ramp. -/
def dropPending (v : Voice) : Voice :=
  v.mapControls Controls.dropPending

/-- Jumps to zero with gate, amplitude, velocity and pressures. -/
def mute (v : Voice) : Voice :=
  v.mapControls Controls.mute

/-- Counts the frames of a block, if a note is on. -/
def grow (v : Voice) (frames : Nat) : Voice :=
  if v.isBusy then { v with age := v.age + frames } else v

/-- A new touch ends what the voice did before: the note belongs to its source. -/
theorem heldBy_start (v : Voice) (e : Event) (t : Temperament) :
    (v.start e t).heldBy e.source = true := by
  simp [heldBy, start]

/-- A released voice is off. -/
theorem isOff_release (v : Voice) (e : Event) :
    (v.release e).isOff = true := by
  rfl

end Voice
end Polyphony
