import Polyphony.Ramp

/-!
# The control values of a voice

Eleven ramps make up what a voice sends out.  A full set of them also serves as
the shared bus of the main channel, whose values are added to those of every
voice.

The glide of a ramp is decided by its role: pitch and bend share one glide time,
gate and velocity always jump, pressures, amplitude and modulations share
another glide time, and drift has its own.
-/

namespace Polyphony

/-- The ramps of a voice, or of the shared bus. -/
structure Controls where
  /-- The pitch of the note, in octaves. -/
  pitch : Ramp
  /-- The bend of the pitch, in octaves. -/
  pitchBend : Ramp
  /-- One while a note sounds, else zero. -/
  gate : Ramp
  /-- The amplitude of a touch. -/
  amp : Ramp
  /-- The velocity of the note. -/
  velocity : Ramp
  /-- The pressure on the note. -/
  notePressure : Ramp
  /-- The pressure on the channel. -/
  channelPressure : Ramp
  /-- The first modulation. -/
  mod1 : Ramp
  /-- The second modulation. -/
  mod2 : Ramp
  /-- The third modulation. -/
  mod3 : Ramp
  /-- The slow drift of the pitch, in octaves. -/
  drift : Ramp
deriving DecidableEq

namespace Controls

/-- The same ramp in every role. -/
def ofRamp (r : Ramp) : Controls where
  pitch := r
  pitchBend := r
  gate := r
  amp := r
  velocity := r
  notePressure := r
  channelPressure := r
  mod1 := r
  mod2 := r
  mod3 := r
  drift := r

/-- Controls at rest on zero, without glides. -/
def resting (sampleRate : Float32) : Controls :=
  ofRamp { sampleRate }

/-- Does the same to every ramp. -/
def map (f : Ramp → Ramp) (c : Controls) : Controls where
  pitch := f c.pitch
  pitchBend := f c.pitchBend
  gate := f c.gate
  amp := f c.amp
  velocity := f c.velocity
  notePressure := f c.notePressure
  channelPressure := f c.channelPressure
  mod1 := f c.mod1
  mod2 := f c.mod2
  mod3 := f c.mod3
  drift := f c.drift

/-- All ramps with the names of their roles. -/
def named (c : Controls) : List (String × Ramp) :=
  [("pitch", c.pitch), ("pitch_bend", c.pitchBend), ("gate", c.gate), ("amp", c.amp),
    ("velocity", c.velocity), ("note_pressure", c.notePressure),
    ("channel_pressure", c.channelPressure), ("mod1", c.mod1), ("mod2", c.mod2),
    ("mod3", c.mod3), ("drift", c.drift)]

/-- Changes the sample rate of every ramp. -/
def withSampleRate (c : Controls) (sampleRate : Float32) : Controls :=
  c.map fun r => r.withSampleRate sampleRate

/-- Drops the pending changes of every ramp. -/
def dropPending (c : Controls) : Controls :=
  c.map Ramp.dropPending

/-- Sets the glide times, in seconds, by role. -/
def withGlides (c : Controls) (pitch gesture drift : Float32) : Controls where
  pitch := c.pitch.withGlide pitch
  pitchBend := c.pitchBend.withGlide pitch
  gate := c.gate.withGlide 0.0
  amp := c.amp.withGlide gesture
  velocity := c.velocity.withGlide 0.0
  notePressure := c.notePressure.withGlide gesture
  channelPressure := c.channelPressure.withGlide gesture
  mod1 := c.mod1.withGlide gesture
  mod2 := c.mod2.withGlide gesture
  mod3 := c.mod3.withGlide gesture
  drift := c.drift.withGlide drift

/--
Jumps to zero with gate, amplitude, velocity and pressures.  The pitch stays,
so that a sound that fades does not change its pitch.
-/
def mute (c : Controls) : Controls :=
  { c with
    gate := c.gate.toZero
    amp := c.amp.toZero
    velocity := c.velocity.toZero
    notePressure := c.notePressure.toZero
    channelPressure := c.channelPressure.toZero }

/-- The modulation with the number `slot`, counted from zero. -/
def mod? (c : Controls) : Nat → Option Ramp
  | 0 => some c.mod1
  | 1 => some c.mod2
  | 2 => some c.mod3
  | _ => none

/-- Schedules a goal for the modulation with the number `slot`, if there is one. -/
def scheduleMod
    (c : Controls)
    (slot : Nat)
    (value : Float32)
    (offset : Nat) :
    Controls :=
  match slot with
  | 0 => { c with mod1 := c.mod1.schedule value offset }
  | 1 => { c with mod2 := c.mod2.schedule value offset }
  | 2 => { c with mod3 := c.mod3.schedule value offset }
  | _ => c

end Controls
end Polyphony
