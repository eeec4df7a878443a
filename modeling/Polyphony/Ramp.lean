import Polyphony.Binary32.Basic
import Polyphony.Signal.Basic

/-!
# Ramps: sparse changes made into a dense signal

A ramp holds one control value and moves it.  Within a block it collects
changes, each a new goal for the value and the sample at which it takes effect;
rendering the block turns them into a signal with one sample per frame.  With a
glide time, the value approaches each new goal in equal steps and lands on it
exactly; without one it jumps.

**Scheduling.** Changes come in order of their samples.  One that is not later
than the last pending one takes its place at that sample, and when no room is
left the last pending change gives way, so the last value always wins.

**Rendering.** At each sample the changes due by then take effect, a change
beyond the end of the block at its last sample; then the glide moves one step.
A ramp at rest, with nothing pending and no glide in progress, holds its value.
-/

namespace Polyphony

/-- The greatest number of pending changes of a ramp. -/
def maxPending : Nat := 64

/-- A new goal and the sample of the block at which it takes effect. -/
structure Change where
  /-- The goal. -/
  value : Float32
  /-- The sample, counted from the beginning of the block. -/
  offset : Nat
deriving DecidableEq

/-- A control value that moves. -/
structure Ramp where
  /-- The pending changes in order. -/
  pending : List Change := []
  /-- Samples per second. -/
  sampleRate : Float32
  /-- The glide time in seconds. -/
  glideSeconds : Float32 := 0.0
  /-- The glide time in samples. -/
  glideSamples : Nat := 0
  /-- The value at the last rendered sample. -/
  value : Float32 := 0.0
  /-- The goal of the glide. -/
  target : Float32 := 0.0
  /-- What one sample of the glide adds. -/
  step : Float32 := 0.0
  /-- The samples left until the goal is reached. -/
  remaining : Nat := 0
deriving DecidableEq

namespace Ramp

section Settings

/-- A time in whole samples; a time that is no positive number of them is none. -/
def samplesIn (seconds sampleRate : Float32) : Nat :=
  let samples := Binary32.roundHalfAway (seconds * sampleRate)
  if samples.isFinite ∧ 0.0 < samples then samples.toUInt32.toNat else 0

/-- Measures the glide time in samples. -/
def measureGlide (r : Ramp) : Ramp :=
  { r with glideSamples := samplesIn r.glideSeconds r.sampleRate }

/-- Changes the sample rate; the glide time in seconds stays. -/
def withSampleRate (r : Ramp) (sampleRate : Float32) : Ramp :=
  measureGlide { r with sampleRate }

/-- Changes the glide time; a glide in progress goes on as it began. -/
def withGlide (r : Ramp) (seconds : Float32) : Ramp :=
  measureGlide { r with glideSeconds := Binary32.larger seconds 0.0 }

end Settings

section Scheduling

/-- The pending changes after one more has been scheduled. -/
def insertChange (pending : List Change) (c : Change) : List Change :=
  match pending.getLast? with
  | none => [c]
  | some last =>
    if c.offset ≤ last.offset then pending.dropLast ++ [{ last with value := c.value }]
    else if pending.length < maxPending then pending ++ [c]
    else pending.dropLast ++ [c]

/-- Schedules a goal for a sample of the next block. -/
def schedule (r : Ramp) (value : Float32) (offset : Nat) : Ramp :=
  { r with pending := insertChange r.pending { value, offset } }

/-- Drops the pending changes; value and glide stay. -/
def dropPending (r : Ramp) : Ramp :=
  { r with pending := [] }

/-- Jumps to a value, with nothing pending and no glide. -/
def jumpTo (r : Ramp) (value : Float32) : Ramp :=
  { r with pending := [], value, target := value, step := 0.0, remaining := 0 }

/-- Jumps to zero. -/
def toZero (r : Ramp) : Ramp :=
  r.jumpTo 0.0

end Scheduling

section Rendering

/-- Whether nothing is pending and no glide is in progress. -/
def isResting (r : Ramp) : Bool :=
  r.pending.isEmpty && r.remaining == 0

/-- Takes a new goal: begins a glide to it, or jumps if there is no glide time. -/
def aim (r : Ramp) (goal : Float32) : Ramp :=
  if r.glideSamples = 0 then { r with target := goal, value := goal, remaining := 0 }
  else
    { r with
      target := goal
      step := (goal - r.value) / Float32.ofNat r.glideSamples
      remaining := r.glideSamples }

/-- Moves the glide by one sample; the last step lands on the goal itself. -/
def glideOn (r : Ramp) : Ramp :=
  match r.remaining with
  | 0 => r
  | 1 => { r with remaining := 0, value := r.target }
  | left + 2 => { r with remaining := left + 1, value := r.value + r.step }

/-- Whether a change is due at sample `i` of a block whose last sample is `last`. -/
def isDue (last i : Nat) (c : Change) : Bool :=
  min c.offset last ≤ i

/-- Takes the goals of the changes due at a sample, in order. -/
def takeDue (last i : Nat) (r : Ramp) : Ramp :=
  let aimed := (r.pending.takeWhile (isDue last i)).foldl (fun s c => s.aim c.value) r
  { aimed with pending := r.pending.dropWhile (isDue last i) }

/-- The ramp at sample `i` of a block whose last sample is `last`. -/
def advance (last i : Nat) (r : Ramp) : Ramp :=
  (r.takeDue last i).glideOn

/--
Goes through a block from sample `i` on.  Each sample of the block is mixed with
the value of the ramp at that sample and put behind `done`.
-/
def traverse
    (mix : Float32 → Float32 → Float32)
    (last : Nat) :
    List Float32 → Nat → Ramp → Signal → Signal × Ramp
  | [], _, r, done => (done, r)
  | x :: xs, i, r, done =>
    let r := r.advance last i
    traverse mix last xs (i + 1) r (done.push (mix x r.value))

/-- Goes through a whole block; afterwards nothing is pending. -/
def overlay
    (mix : Float32 → Float32 → Float32)
    (block : Signal)
    (r : Ramp) :
    Signal × Ramp :=
  let (signal, r) := traverse mix (block.size - 1) block.toList 0 r #[]
  (signal, r.dropPending)

/-- The signal of a block of `n` samples, and the ramp after it. -/
def render (r : Ramp) (n : Nat) : Signal × Ramp :=
  if r.isResting then (Signal.constant n r.value, r)
  else r.overlay (fun _ value => value) (Signal.constant n 0.0)

/--
The block with the signal of the ramp added to it, and the ramp after it.  A
ramp that rests on zero leaves the block untouched.
-/
def addOnto (r : Ramp) (block : Signal) : Signal × Ramp :=
  if r.isResting then
    (if r.value == 0.0 then block else block.shift r.value, r)
  else r.overlay (· + ·) block

/-- Every sample of the block becomes one sample of the signal. -/
theorem size_traverse
    (mix : Float32 → Float32 → Float32)
    (last : Nat)
    (block : List Float32) :
    ∀ (i : Nat) (r : Ramp) (done : Signal),
      (traverse mix last block i r done).1.size = done.size + block.length := by
  induction block with
  | nil =>
      intro i r done
      simp [traverse]
  | cons x xs ih =>
      intro i r done
      simp only [traverse, ih, Array.size_push, List.length_cons]
      omega

/-- A rendered block has the length that was asked for. -/
@[simp] theorem size_render (r : Ramp) (n : Nat) :
    (r.render n).1.size = n := by
  unfold render
  split
  · simp [Signal.constant]
  · simp [overlay, size_traverse, Signal.constant]

/-- Adding to a block keeps its length. -/
@[simp] theorem size_addOnto (r : Ramp) (block : Signal) :
    (r.addOnto block).1.size = block.size := by
  unfold addOnto
  split
  · dsimp only
    split
    · rfl
    · simp [Signal.shift]
  · simp [overlay, size_traverse]

end Rendering

end Ramp
end Polyphony
