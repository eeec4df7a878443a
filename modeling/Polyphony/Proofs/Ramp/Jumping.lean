import Polyphony.Proofs.Ramp.Frames

/-!
# Goals, and ramps without a glide

Where a ramp is headed after a block is decided by the value that was scheduled
last, whatever else is pending.  A ramp whose glide time is zero is always at its
target, and jumps from one goal to the next.

**Results.**
* `target_rendered`: a block takes every ramp towards its goal.
* `Jumps.restsAt`: after a block, a ramp without a glide rests at its goal.
* `Jumps.withGlide`, `Jumps.withSampleRate`: setting rates and glide times of zero
  does not disturb it.
-/

namespace Polyphony
namespace Ramp

/-- Where the ramp goes: to the last pending value, or else to its target. -/
def goal (r : Ramp) : Float32 :=
  (r.pending.getLast?.map Change.value).getD r.target

/-- A ramp without a glide, at its target. -/
structure Jumps (r : Ramp) : Prop where
  seconds : r.glideSeconds = 0.0
  samples : r.glideSamples = 0
  remaining : r.remaining = 0
  landed : r.value = r.target

/-- A ramp that holds a value, with nothing pending and no glide. -/
structure RestsAt (r : Ramp) (x : Float32) : Prop where
  pending : r.pending = []
  value : r.value = x
  target : r.target = x
  remaining : r.remaining = 0

section Scheduling

theorem goal_schedule (r : Ramp) (value : Float32) (offset : Nat) :
    (r.schedule value offset).goal = value := by
  unfold goal schedule
  dsimp only
  rw [getLast?_insertChange]
  rfl

/-- With nothing pending, a ramp goes to its target. -/
theorem goal_of_pending_nil
    {r : Ramp}
    (h : r.pending = []) :
    r.goal = r.target := by
  simp [goal, h]

theorem Jumps.scheduleAll
    {r : Ramp}
    (h : r.Jumps)
    (changes : List Change) :
    (r.scheduleAll changes).Jumps :=
  ⟨h.seconds, h.samples, h.remaining, h.landed⟩

theorem Jumps.restsAt_goal
    {r : Ramp}
    (h : r.Jumps)
    (hnil : r.pending = []) :
    r.RestsAt r.goal := by
  rw [goal_of_pending_nil hnil]
  exact ⟨hnil, h.landed, rfl, h.remaining⟩

theorem RestsAt.goal_eq
    {r : Ramp} {x : Float32}
    (h : r.RestsAt x) :
    r.goal = x := by
  unfold goal
  rw [h.pending, h.target]
  rfl

end Scheduling

section Frames

theorem target_aim (r : Ramp) (goal : Float32) :
    (r.aim goal).target = goal := by
  unfold aim
  split <;> rfl

/-- After several goals, one after the other, the last one is the target. -/
theorem target_aimAll (changes : List Change) (r : Ramp) :
    (aimAll changes r).target = (changes.getLast?.map Change.value).getD r.target := by
  induction changes generalizing r with
  | nil => rfl
  | cons c changes ih =>
      show (aimAll changes (r.aim c.value)).target = _
      rw [ih, target_aim]
      cases changes with
      | nil => rfl
      | cons d changes => simp [List.getLast?_cons]

theorem target_glideOn (r : Ramp) :
    r.glideOn.target = r.target := by
  unfold glideOn
  split <;> rfl

/-- A frame takes the ramp nearer to its goal, and does not change it. -/
theorem goal_next (r : Ramp) :
    r.next.goal = r.goal := by
  have htarget : r.next.target = (due r.pending).getLast?.elim r.target Change.value := by
    show (aimAll (due r.pending) r).glideOn.target = _
    rw [target_glideOn, target_aimAll]
    cases (due r.pending).getLast? <;> rfl
  have hsplit : r.pending = due r.pending ++ r.pending.dropWhile Change.isNow :=
    List.takeWhile_append_dropWhile.symm
  have hvalue : Change.value ∘ Change.earlier 1 = Change.value := by
    rfl
  unfold goal
  rw [htarget, pending_next, passed, List.getLast?_map, Option.map_map, hvalue]
  conv_rhs => rw [hsplit, List.getLast?_append]
  cases (r.pending.dropWhile Change.isNow).getLast? with
  | none => cases (due r.pending).getLast? <;> rfl
  | some last => rfl

theorem goal_iterate (n : Nat) (r : Ramp) :
    (next^[n] r).goal = r.goal := by
  induction n generalizing r with
  | zero => rfl
  | succ n ih => rw [Function.iterate_succ_apply, ih, goal_next]

theorem goal_within (r : Ramp) (n : Nat) :
    (r.within n).goal = r.goal := by
  have hvalue : Change.value ∘ localChange (n - 1) 0 = Change.value := by
    rfl
  unfold goal within fromSample
  dsimp only
  rw [List.getLast?_map, Option.map_map, hvalue]

/-- After a block the goal is the target. -/
theorem target_rendered
    {n : Nat} (r : Ramp)
    (h : 0 < n) :
    (next^[n] (r.within n)).target = r.goal := by
  rw [← goal_of_pending_nil (pending_rendered r h), goal_iterate, goal_within]

theorem Jumps.aim
    {r : Ramp}
    (h : r.Jumps)
    (goal : Float32) :
    (r.aim goal).Jumps := by
  unfold Ramp.aim
  rw [if_pos h.samples]
  exact ⟨h.seconds, h.samples, rfl, rfl⟩

theorem Jumps.aimAll
    {r : Ramp}
    (h : r.Jumps)
    (changes : List Change) :
    (Ramp.aimAll changes r).Jumps := by
  induction changes generalizing r with
  | nil => exact h
  | cons c changes ih => exact ih (h.aim c.value)

theorem Jumps.next
    {r : Ramp}
    (h : r.Jumps) :
    r.next.Jumps := by
  have hjumps := h.aimAll (due r.pending)
  unfold Ramp.next
  rw [glideOn_of_zero hjumps.remaining]
  exact ⟨hjumps.seconds, hjumps.samples, hjumps.remaining, hjumps.landed⟩

theorem Jumps.iterate
    {r : Ramp}
    (h : r.Jumps)
    (n : Nat) :
    (Ramp.next^[n] r).Jumps := by
  induction n generalizing r with
  | zero => exact h
  | succ n ih =>
      rw [Function.iterate_succ_apply]
      exact ih h.next

theorem Jumps.within
    {r : Ramp}
    (h : r.Jumps)
    (n : Nat) :
    (r.within n).Jumps :=
  ⟨h.seconds, h.samples, h.remaining, h.landed⟩

/-- After a block, a ramp without a glide rests at its goal. -/
theorem Jumps.restsAt
    {n : Nat} {r : Ramp}
    (h : r.Jumps)
    (hn : 0 < n) :
    (Ramp.next^[n] (r.within n)).Jumps
      ∧ (Ramp.next^[n] (r.within n)).RestsAt r.goal := by
  have hjumps := (h.within n).iterate n
  have hrests := hjumps.restsAt_goal (pending_rendered r hn)
  rw [goal_iterate, goal_within] at hrests
  exact ⟨hjumps, hrests⟩

theorem getElem?_samples
    {n i : Nat} (r : Ramp)
    (h : i < n) :
    (samples n r)[i]? = some (Ramp.next^[i + 1] r).value := by
  induction n generalizing r i with
  | zero => exact absurd h (Nat.not_lt_zero _)
  | succ n ih =>
      cases i with
      | zero => rfl
      | succ i =>
          rw [samples, List.getElem?_cons_succ, ih r.next (Nat.lt_of_succ_lt_succ h)]
          rfl

/-- The last sample of a block is the goal. -/
theorem Jumps.last_sample
    {n : Nat} {r : Ramp}
    (h : r.Jumps)
    (hn : 0 < n) :
    (r.render n).1[n - 1]? = some r.goal := by
  have hlast : n - 1 + 1 = n := by
    omega
  rw [render_eq r hn, List.getElem?_toArray, getElem?_samples _ (by omega), hlast,
    (h.restsAt hn).2.value]

end Frames

section Settings

/-- No time is no samples, at whatever rate. -/
theorem samplesIn_zero (sampleRate : Float32) :
    samplesIn 0.0 sampleRate = 0 := by
  unfold samplesIn
  rcases Binary32.zero_mul_cases sampleRate with h | h | h
  · rw [h]
    decide +kernel
  · rw [h]
    decide +kernel
  · rw [h]
    decide +kernel

theorem Jumps.measureGlide
    {r : Ramp}
    (h : r.Jumps) :
    r.measureGlide.Jumps := by
  refine ⟨h.seconds, ?_, h.remaining, h.landed⟩
  show samplesIn r.glideSeconds r.sampleRate = 0
  rw [h.seconds]
  exact samplesIn_zero _

theorem Jumps.withSampleRate
    {r : Ramp}
    (h : r.Jumps)
    (sampleRate : Float32) :
    (r.withSampleRate sampleRate).Jumps := by
  have hset : ({ r with sampleRate } : Ramp).Jumps :=
    ⟨h.seconds, h.samples, h.remaining, h.landed⟩
  exact hset.measureGlide

/-- A glide time of zero makes no difference. -/
theorem Jumps.withGlide
    {r : Ramp}
    (h : r.Jumps) :
    (r.withGlide 0.0).Jumps := by
  have hzero : Binary32.larger 0.0 0.0 = 0.0 := by
    decide +kernel
  have hset : ({ r with glideSeconds := Binary32.larger 0.0 0.0 } : Ramp).Jumps :=
    ⟨hzero, h.samples, h.remaining, h.landed⟩
  exact hset.measureGlide

theorem Jumps.toZero
    {r : Ramp}
    (h : r.Jumps) :
    r.toZero.Jumps ∧ r.toZero.RestsAt 0.0 :=
  ⟨⟨h.seconds, h.samples, rfl, rfl⟩, ⟨rfl, rfl, rfl, rfl⟩⟩

end Settings

end Ramp
end Polyphony
