import Polyphony.Binary32.Basic
import Polyphony.Tuning

/-!
# Settings

Everything that can be changed while the engine runs: how many voices play, how
events are read, and the times and amounts that shape the signals.
-/

namespace Polyphony

/-- How events are read. -/
inductive Protocol
  /-- One bend and one pressure for all notes. -/
  | conventional
  /-- Every note on a channel of its own; channel one is shared by all. -/
  | expressive
  /-- Notes come with continuous updates of position and pressure. -/
  | continuousTouch
deriving DecidableEq, Inhabited

namespace Protocol

/-- The name of a protocol in messages. -/
def name : Protocol → String
  | conventional => "Conventional"
  | expressive => "Expressive"
  | continuousTouch => "ContinuousTouch"

end Protocol

/-- The controller bound to the x axis at first. -/
def defaultXController : UInt8 := 73

/-- The controller bound to the y axis. -/
def yController : UInt8 := 74

/-- The controller that silences everything. -/
def allSoundOff : UInt8 := 120

/-- The controller that releases every note. -/
def allNotesOff : UInt8 := 123

/-- The controllers of the three modulations. -/
structure ModControllers where
  mod1 : UInt8 := 1
  mod2 : UInt8 := 2
  mod3 : UInt8 := 3
deriving DecidableEq, Inhabited

namespace ModControllers

/-- The first modulation that a controller moves. -/
def slot? (c : ModControllers) (number : UInt8) : Option Nat :=
  [c.mod1, c.mod2, c.mod3].findIdx? (· == number)

end ModControllers

/-- The settings of an engine. -/
structure Settings where
  /-- How many voices play notes. -/
  voices : Nat := 0
  /-- How events are read. -/
  protocol : Protocol := .conventional
  /-- The range of the pitch wheel in semitones. -/
  bendRange : Float32 := 7.0
  /-- The controllers of the modulations. -/
  controllers : ModControllers := {}
  /-- The controller of the x axis, when every note has its channel. -/
  xController : UInt8 := defaultXController
  /-- Whether all voices play one note. -/
  unison : Bool := false
  /-- Whether a note that comes back in unison attacks again. -/
  glissando : Bool := false
  /-- Whether the search for a free voice goes around. -/
  rotate : Bool := true
  /-- The glide time of the pitch in seconds. -/
  glide : Float32 := 0.0
  /-- The number of touch updates per second. -/
  dataRate : Float32 := 100.0
  /-- The master tuning in Hz. -/
  masterTune : Float32 := Tuning.concertPitch
  /-- The amount of drift; zero means none. -/
  drift : Float32 := 0.0
deriving DecidableEq, Inhabited

namespace Settings

/-- The glide time of pressures and modulations, except for touches. -/
def quickGlide : Float32 := 0.001

/-- The lowest update rate that counts. -/
def lowestDataRate : Float32 := 100.0

/-- The glide time that bridges the gap between two touch updates. -/
def updateGlide (s : Settings) : Float32 :=
  1.0 / Binary32.larger s.dataRate lowestDataRate

/-- The glide time of amplitude, pressures and modulations. -/
def gestureGlide (s : Settings) : Float32 :=
  match s.protocol with
  | .continuousTouch => s.updateGlide
  | .conventional => quickGlide
  | .expressive => quickGlide

end Settings
end Polyphony
