import Polyphony.Limits

/-!
# Control signals

A control signal is a run of samples.  The engine produces eight of them for
each voice, one per stream, and all of one block have the same length.
-/

namespace Polyphony

/-- The greatest number of voices. -/
def maxVoices : Nat := 16

/-- The greatest number of frames in a block. -/
def maxBlock : Nat := 512

/-- The number of streams of a voice. -/
def streamCount : Nat := 8

/-- The number of input channels. -/
def channelCount : Nat := 16

/-- The control streams of a voice. -/
inductive Stream
  /-- The pitch in octaves. -/
  | pitch
  /-- One while a note sounds, else zero. -/
  | gate
  /-- The velocity of the note. -/
  | velocity
  /-- The number of the voice. -/
  | voice
  /-- The pressure after the attack. -/
  | aftertouch
  /-- The first modulation. -/
  | modA
  /-- The second modulation. -/
  | modB
  /-- The third modulation. -/
  | modC
deriving DecidableEq, Inhabited

namespace Stream

/-- All streams in output order. -/
def all : List Stream :=
  [pitch, gate, velocity, voice, aftertouch, modA, modB, modC]

/-- The place of a stream in output order. -/
def index : Stream → Nat
  | pitch => 0
  | gate => 1
  | velocity => 2
  | voice => 3
  | aftertouch => 4
  | modA => 5
  | modB => 6
  | modC => 7

/-- The name of a stream, as a host shows it. -/
def name : Stream → String
  | pitch => "pitch"
  | gate => "gate"
  | velocity => "vel"
  | voice => "voice"
  | aftertouch => "after"
  | modA => "moda"
  | modB => "modb"
  | modC => "modc"

/-- The place of every stream is one of eight. -/
theorem index_lt (s : Stream) :
    s.index < streamCount := by
  cases s <;> decide

/-- The stream at its own place is the stream itself. -/
theorem all_getElem?_index (s : Stream) :
    all[s.index]? = some s := by
  cases s <;> rfl

end Stream

/-- A run of samples. -/
abbrev Signal := Array Float32

/-- The number of bytes of a sample. -/
def sampleBytes : Nat := 4

namespace Signal

/-- A signal of one value. -/
def constant (length : Nat) (value : Float32) : Signal :=
  Array.replicate length value

/-- A signal of one value, if it fits into memory. -/
def constant? (length : Nat) (value : Float32) : Option Signal :=
  if FitsMemory length sampleBytes then some (constant length value) else none

/-- The sum of two signals, sample by sample. -/
def add (s t : Signal) : Signal :=
  Array.zipWith (· + ·) s t

/-- A signal with one value added to every sample. -/
def shift (s : Signal) (amount : Float32) : Signal :=
  s.map (· + amount)

/-- A signal with every sample multiplied by one value. -/
def scale (s : Signal) (factor : Float32) : Signal :=
  s.map (· * factor)

/-- Stretches the range from zero to one over the range from minus one to one. -/
def bipolar (s : Signal) : Signal :=
  s.map fun x => x * 2.0 - 1.0

@[simp] theorem size_add
    {s t : Signal}
    (h : s.size = t.size) :
    (s.add t).size = s.size := by
  simp [add, h]

end Signal
end Polyphony
