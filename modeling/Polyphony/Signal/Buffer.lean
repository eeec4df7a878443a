import Polyphony.Signal.Basic

/-!
# Output buffers

A buffer holds the eight streams of a number of voices, each as a plane of one
length.  The planes lie one behind the other: first those of voice zero in
stream order, then those of voice one, and so on.  A plane can be addressed by
its number or by voice and stream, and the eight planes of a voice also as one
run of samples.

Reading or writing outside of the buffer gives no result.  A plane of no frames
is an empty run and lies nowhere, so it can be read under any number, as long as
that number can be counted.
-/

namespace Polyphony

/-- Puts the values, one after the other, in place of the samples from `i` on. -/
def overwrite : List Float32 → Nat → Array Float32 → Array Float32
  | [], _, samples => samples
  | x :: xs, i, samples => overwrite xs (i + 1) (samples.setIfInBounds i x)

@[simp] theorem size_overwrite (xs : List Float32) :
    ∀ (i : Nat) (samples : Array Float32),
      (overwrite xs i samples).size = samples.size := by
  induction xs with
  | nil =>
      intro i samples
      rfl
  | cons x xs ih =>
      intro i samples
      simp [overwrite, ih]

/-- The control signals of a number of voices. -/
structure Buffer where
  /-- The number of voices. -/
  voices : Nat
  /-- The length of a plane. -/
  frames : Nat
  /-- All samples, plane by plane. -/
  samples : Array Float32
  /-- Every plane of every voice is there. -/
  size_eq : samples.size = voices * streamCount * frames
deriving DecidableEq

namespace Buffer

/-- A buffer with all samples of one value. -/
def filled (voices frames : Nat) (value : Float32) : Buffer where
  voices := voices
  frames := frames
  samples := Array.replicate (voices * streamCount * frames) value
  size_eq := by simp

/-- A buffer of zeros. -/
def silent (voices frames : Nat) : Buffer :=
  filled voices frames 0.0

/-- A buffer with all samples of one value, if it fits into memory. -/
def filled? (voices frames : Nat) (value : Float32) : Option Buffer :=
  if voices * streamCount ≤ maxCount
      ∧ FitsMemory (voices * streamCount * frames) sampleBytes then
    some (filled voices frames value)
  else none

/-- A buffer of zeros, if it fits into memory. -/
def silent? (voices frames : Nat) : Option Buffer :=
  filled? voices frames 0.0

/-- The number of planes. -/
def planes (b : Buffer) : Nat :=
  b.voices * streamCount

/-- The number of the plane that holds a stream of a voice. -/
def planeOf (voice : Nat) (s : Stream) : Nat :=
  voice * streamCount + s.index

/-- Where a plane begins. -/
def planeStart (b : Buffer) (plane : Nat) : Nat :=
  plane * b.frames

/-- Where the planes of a voice begin. -/
def voiceStart (b : Buffer) (voice : Nat) : Nat :=
  voice * streamCount * b.frames

/-- The number of samples of a voice. -/
def voiceLength (b : Buffer) : Nat :=
  streamCount * b.frames

/-- Whether a run of samples lies within the buffer. -/
def Contains (b : Buffer) (start length : Nat) : Prop :=
  start + length ≤ b.samples.size

instance (b : Buffer) (start length : Nat) : Decidable (b.Contains start length) :=
  inferInstanceAs (Decidable (_ ≤ _))

/-- Whether the planes of a voice have numbers; without frames nothing else limits them. -/
def Numbers (b : Buffer) (voice : Nat) : Prop :=
  b.frames = 0 → voice * streamCount ≤ maxCount

instance (b : Buffer) (voice : Nat) : Decidable (b.Numbers voice) :=
  inferInstanceAs (Decidable (_ → _))

/-- The buffer with the samples from `start` on replaced by a list of values. -/
def write (b : Buffer) (start : Nat) (values : List Float32) : Buffer :=
  { b with
    samples := overwrite values start b.samples
    size_eq := by simp [b.size_eq] }

/-- The run of samples at `start`, if it lies within the buffer. -/
def run? (b : Buffer) (start length : Nat) : Option Signal :=
  if b.Contains start length then some (b.samples.extract start (start + length))
  else none

/-- Sets the sample at a position of a run that lies within the buffer. -/
def setInRun?
    (b : Buffer)
    (start length position : Nat)
    (value : Float32) :
    Option Buffer :=
  if b.Contains start length ∧ position < length then
    some (b.write (start + position) [value])
  else none

/-- Sets every sample of a run that lies within the buffer. -/
def fillRun?
    (b : Buffer)
    (start length : Nat)
    (value : Float32) :
    Option Buffer :=
  if b.Contains start length then some (b.write start (List.replicate length value))
  else none

/-- A plane by its number. -/
def plane? (b : Buffer) (plane : Nat) : Option Signal :=
  b.run? (b.planeStart plane) b.frames

/-- A stream of a voice. -/
def stream? (b : Buffer) (voice : Nat) (s : Stream) : Option Signal :=
  if b.Numbers voice then b.plane? (planeOf voice s) else none

/-- All planes of a voice as one run. -/
def voice? (b : Buffer) (voice : Nat) : Option Signal :=
  if b.Numbers voice then b.run? (b.voiceStart voice) b.voiceLength else none

/-- Sets a sample of a plane. -/
def setPlane?
    (b : Buffer)
    (plane frame : Nat)
    (value : Float32) :
    Option Buffer :=
  b.setInRun? (b.planeStart plane) b.frames frame value

/-- Sets a sample of a stream of a voice. -/
def setStream?
    (b : Buffer)
    (voice : Nat)
    (s : Stream)
    (frame : Nat)
    (value : Float32) :
    Option Buffer :=
  b.setPlane? (planeOf voice s) frame value

/-- Sets a sample of a voice by its position among all samples of the voice. -/
def setVoice?
    (b : Buffer)
    (voice position : Nat)
    (value : Float32) :
    Option Buffer :=
  b.setInRun? (b.voiceStart voice) b.voiceLength position value

/-- Sets every sample of a plane. -/
def fillPlane? (b : Buffer) (plane : Nat) (value : Float32) : Option Buffer :=
  b.fillRun? (b.planeStart plane) b.frames value

/-- Sets every sample of a voice. -/
def fillVoice? (b : Buffer) (voice : Nat) (value : Float32) : Option Buffer :=
  if b.Numbers voice then b.fillRun? (b.voiceStart voice) b.voiceLength value else none

/-- Sets every sample of a voice to zero. -/
def silence? (b : Buffer) (voice : Nat) : Option Buffer :=
  b.fillVoice? voice 0.0

/-- Writes a signal over the beginning of a stream of a voice. -/
def putStream
    (b : Buffer)
    (voice : Nat)
    (s : Stream)
    (signal : Signal) :
    Buffer :=
  b.write (b.planeStart (planeOf voice s)) signal.toList

/-- Sets every sample of a voice of the buffer to zero. -/
def silence (b : Buffer) (voice : Nat) : Buffer :=
  b.write (b.voiceStart voice) (List.replicate b.voiceLength 0.0)

@[simp] theorem voices_write (b : Buffer) (start : Nat) (values : List Float32) :
    (b.write start values).voices = b.voices := by
  rfl

@[simp] theorem frames_write (b : Buffer) (start : Nat) (values : List Float32) :
    (b.write start values).frames = b.frames := by
  rfl

/-- The planes of a voice of the buffer lie within it. -/
theorem contains_voice
    {b : Buffer} {voice : Nat}
    (h : voice < b.voices) :
    b.Contains (b.voiceStart voice) b.voiceLength := by
  have hle : (voice + 1) * (streamCount * b.frames) ≤ b.voices * (streamCount * b.frames) :=
    Nat.mul_le_mul_right _ h
  unfold Contains voiceStart voiceLength
  rw [b.size_eq, Nat.mul_assoc, Nat.mul_assoc, ← Nat.succ_mul]
  exact hle

end Buffer
end Polyphony
