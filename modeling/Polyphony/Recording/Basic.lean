import Polyphony.Signal.Buffer

/-!
# Recordings

A recording keeps every stream of every voice over a whole performance.  It
grows block by block: from each plane of an output buffer the first frames are
put behind what was recorded before.
-/

namespace Polyphony

/-- The number of bytes of a recorded plane, its samples not counted. -/
def planeBytes : Nat := 24

/-- The streams of a number of voices over a whole performance. -/
structure Recording where
  /-- The number of voices. -/
  voices : Nat
  /-- Samples per second. -/
  sampleRate : Float32
  /-- The recorded planes, in the order of an output buffer. -/
  planes : List Signal
deriving DecidableEq

namespace Recording

/-- A recording without frames. -/
def empty (voices : Nat) (sampleRate : Float32) : Recording :=
  { voices, sampleRate, planes := List.replicate (voices * streamCount) #[] }

/-- Whether a recording of so many voices and frames fits into memory. -/
def HasRoom (voices frames : Nat) : Prop :=
  voices * streamCount ≤ maxCount
    ∧ FitsMemory (voices * streamCount) planeBytes
    ∧ (voices = 0 ∨ FitsMemory frames sampleBytes)

instance (voices frames : Nat) : Decidable (HasRoom voices frames) :=
  inferInstanceAs (Decidable (_ ∧ _))

/-- A recording without frames but with room for some, if they fit into memory. -/
def empty? (voices : Nat) (sampleRate : Float32) (frames : Nat) : Option Recording :=
  if HasRoom voices frames then some (empty voices sampleRate) else none

/-- The number of recorded frames. -/
def frames (r : Recording) : Nat :=
  (r.planes.head?.map Array.size).getD 0

/-- The recorded stream of a voice. -/
def stream? (r : Recording) (voice : Nat) (s : Stream) : Option Signal :=
  r.planes[Buffer.planeOf voice s]?

/-- Whether a block has every plane of the recording, with at least `n` frames. -/
def Fits (r : Recording) (block : Buffer) (n : Nat) : Prop :=
  ∀ i < r.planes.length,
    block.Contains (block.planeStart i) block.frames ∧ n ≤ block.frames

instance (r : Recording) (block : Buffer) (n : Nat) : Decidable (r.Fits block n) :=
  inferInstanceAs (Decidable (∀ i < r.planes.length, _))

/-- The planes, from plane `i` of a block on, with its first `n` frames put behind. -/
def extend (block : Buffer) (n : Nat) : Nat → List Signal → List Signal
  | _, [] => []
  | i, plane :: planes =>
    let start := block.planeStart i
    (plane ++ block.samples.extract start (start + n)) :: extend block n (i + 1) planes

/-- The recording with the first `n` frames of a block put behind. -/
def append (r : Recording) (block : Buffer) (n : Nat) : Recording :=
  { r with planes := extend block n 0 r.planes }

/-- The recording with the first `n` frames of a block put behind, if the block fits. -/
def append? (r : Recording) (block : Buffer) (n : Nat) : Option Recording :=
  if r.Fits block n then some (r.append block n) else none

@[simp] theorem length_extend (block : Buffer) (n : Nat) (planes : List Signal) :
    ∀ i, (extend block n i planes).length = planes.length := by
  induction planes with
  | nil =>
      intro i
      rfl
  | cons plane planes ih =>
      intro i
      simp [extend, ih]

end Recording
end Polyphony
