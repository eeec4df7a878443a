import Polyphony.Library

/-!
# Slow drift of the pitch

Every ten seconds each voice gets a new goal for a small offset of its pitch: a
part that belongs to the voice and a random part.  The goals are drawn in the
first block and then in the first block that begins more than an interval after
the block of the last draw.
-/

namespace Polyphony

/-- The time between two draws, which is also the glide time, in seconds. -/
def driftSeconds : Float32 := 10.0

/-- The clock of the draws and the source of their random part. -/
structure Drift where
  /-- The source of the random part. -/
  random : Random
  /-- The samples since the beginning of the block of the last draw. -/
  elapsed : Option Nat := none
  /-- The samples that have to pass between two draws. -/
  interval : Nat

namespace Drift

/-- The seed of the random part. -/
def seed : UInt64 := 0x74616374

/-- The part that belongs to a voice, before scaling. -/
def table : Array Float32 :=
  #[0.465, 0.005, 0.013, 0.019, 0.155, 0.933, 0.002, 0.024,
    0.943, 0.924, 0.139, 0.501, 0.196, 0.591, 0.961, 0.442]

/-- The scale of the part that belongs to a voice, in octaves. -/
def constantAmount : Float32 := 0.004

/-- The scale of the random part, in octaves. -/
def randomAmount : Float32 := 0.002

/-- The interval in samples. -/
def intervalAt (sampleRate : Float32) : Nat :=
  (sampleRate * driftSeconds).toUInt64.toNat

/-- A clock that draws in the first block. -/
def start (library : Library) (sampleRate : Float32) : Drift :=
  { random := Random.ofSeed library seed, interval := intervalAt sampleRate }

/-- Changes the sample rate; the time already passed stays as it is. -/
def withSampleRate (d : Drift) (sampleRate : Float32) : Drift :=
  { d with interval := intervalAt sampleRate }

/-- Starts the clock again, so that the next block draws. -/
def restart (d : Drift) : Drift :=
  { d with elapsed := none }

/-- Whether the next block draws. -/
def isDue (d : Drift) : Bool :=
  match d.elapsed with
  | none => true
  | some passed => d.interval < passed

/-- The clock after a block of `frames` samples. -/
def advance (d : Drift) (frames : Nat) : Drift :=
  let passed := if d.isDue then 0 else d.elapsed.getD 0
  { d with elapsed := some (passed + frames) }

/-- The place of a voice in the table. -/
def tableIndex (voice : Nat) : Nat :=
  voice % table.size

theorem tableIndex_lt (voice : Nat) :
    tableIndex voice < table.size := by
  exact Nat.mod_lt _ (by decide)

/-- The goal that is drawn for a voice, before the setting scales it. -/
def goal (d : Drift) (voice : Nat) : Float32 :=
  have := tableIndex_lt voice
  let own := table[tableIndex voice]
  own * constantAmount + d.random.symmetric * randomAmount

/-- The clock after a goal has been drawn. -/
def afterGoal (d : Drift) : Drift :=
  { d with random := d.random.next }

/-- The goals of `count` voices, from a voice on, and the clock after the draws. -/
def goals : Nat → Nat → Drift → List Float32 × Drift
  | 0, _, d => ([], d)
  | count + 1, voice, d =>
    let (rest, after) := goals count (voice + 1) d.afterGoal
    (d.goal voice :: rest, after)

end Drift
end Polyphony
