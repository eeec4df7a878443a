import Polyphony.Binary32.Basic

/-!
# Pitch and tuning

Pitches are measured in octaves above the A of 440 Hz.  This module holds the
three ways a pitch arises:

* from a note number, by a temperament;
* from the position of a pitch wheel, by the range of the wheel in semitones;
* from a master tuning in Hz, which shifts every pitch alike, by a logarithm to base
  two that is given.
-/

namespace Polyphony
namespace Tuning

/-- The wheel position at rest. -/
def wheelCentre : Float32 := 8192.0

/-- The way from the wheel's rest to either end. -/
def wheelReach : Float32 := 8191.0

/-- The highest wheel position; positions have fourteen bits. -/
def wheelTop : UInt16 := 16383

/-- The tuning in Hz that shifts nothing. -/
def concertPitch : Float32 := 440.0

/-- The lowest master tuning in Hz. -/
def lowestTuning : Float32 := 220.0

/-- The highest master tuning in Hz. -/
def highestTuning : Float32 := 880.0

/-- The pitch offset of a wheel position; the wheel reaches `range` semitones. -/
def wheelOffset (position range : Float32) : Float32 :=
  (position - wheelCentre) / wheelReach * range / 12.0

/--
The wheel position that bends by `semitones`: the nearest one, kept within the
wheel's fourteen bits.  A wheel without range stays at rest.
-/
def wheelPosition (semitones range : Float32) : UInt16 :=
  if range == 0.0 then 8192
  else
    let exact := wheelCentre + semitones / range * wheelReach
    min (Binary32.roundHalfAway exact).toUInt16 wheelTop

/-- The shift in octaves of a master tuning, if the tuning is an accepted one. -/
def masterOffset (log2 : Float32 → Float32) (hz : Float32) : Option Float32 :=
  if lowestTuning ≤ hz ∧ hz ≤ highestTuning then some (log2 (hz / concertPitch)) else none

theorem accepted_concertPitch :
    lowestTuning ≤ concertPitch ∧ concertPitch ≤ highestTuning := by
  decide

/-- The concert pitch shifts nothing, if the logarithm of one is zero. -/
theorem masterOffset_concertPitch
    {log2 : Float32 → Float32}
    (h : log2 1.0 = 0.0) :
    masterOffset log2 concertPitch = some 0.0 := by
  have hratio : concertPitch / concertPitch = 1.0 := by
    decide +kernel
  rw [masterOffset, if_pos accepted_concertPitch, hratio, h]

/-- The pitch of a note where notes have one distance, `divisions` to the octave. -/
def equalPitch (reference divisions note : Float32) : Float32 :=
  (note - reference) / divisions

end Tuning

/--
A temperament gives every note a pitch; a note need not be a whole number.  Unless
another one is asked for, it is equal, with twelve notes to the octave and note 69 at
the A of 440 Hz.
-/
structure Temperament where
  pitch : Float32 → Float32 := Tuning.equalPitch 69.0 12.0
deriving Inhabited

namespace Temperament

/-- An equal temperament: `reference` is the note at the A of 440 Hz. -/
def equal (reference divisions : Float32) : Temperament :=
  { pitch := Tuning.equalPitch reference divisions }

end Temperament
end Polyphony
