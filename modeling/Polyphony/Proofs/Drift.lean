import Mathlib.Logic.Function.Iterate
import Polyphony.Drift

/-!
# The numbers that a draw takes

A draw takes one number of the random source for every goal, in the order of the voices.

**Results.**
* `goals_snd`, `getElem?_goals`: what a draw takes, and what it makes of each number.
* `passed_of_due`, `passed_of_not_due`: the clock and the source after a block.
-/

namespace Polyphony

namespace Drift

section Drawing

/-- Goals take one number each. -/
theorem goals_snd (count voice : Nat) (d : Drift) :
    (goals count voice d).2 = { d with random := Random.next^[count] d.random } := by
  induction count generalizing voice d with
  | zero => rfl
  | succ count ih =>
      rw [Function.iterate_succ_apply]
      exact ih (voice + 1) d.afterGoal

/-- The goal of each voice is made of the number that comes next after those before it. -/
theorem getElem?_goals
    {count k : Nat} (voice : Nat) (d : Drift)
    (h : k < count) :
    (goals count voice d).1[k]?
      = some (({ d with random := Random.next^[k] d.random } : Drift).goal (voice + k)) := by
  induction count generalizing voice d k with
  | zero => omega
  | succ count ih =>
      cases k with
      | zero => rfl
      | succ k =>
          have hrest := ih (voice + 1) d.afterGoal (Nat.lt_of_succ_lt_succ h)
          rw [Function.iterate_succ_apply, ← Nat.add_assoc, Nat.add_right_comm]
          exact hrest

/-- The goal of a voice in a draw, made of the number after those of the voices before. -/
def drawnGoal (d : Drift) (id : Nat) : Float32 :=
  ({ d with random := Random.next^[id] d.random } : Drift).goal id

/-- The drift after a block of `n` frames, for `count` voices. -/
def passed (d : Drift) (count n : Nat) : Drift :=
  if d.isDue then (goals count 0 (d.advance n)).2 else d.advance n

variable {d : Drift} {count n : Nat}

theorem passed_of_due
    (h : d.isDue = true) :
    d.passed count n
      = { d with random := Random.next^[count] d.random, elapsed := some n } := by
  simp [passed, goals_snd, advance, h]

theorem passed_of_not_due
    {since : Nat}
    (h : d.isDue = false)
    (helapsed : d.elapsed = some since) :
    d.passed count n = { d with elapsed := some (since + n) } := by
  simp [passed, advance, h, helapsed]

theorem random_passed :
    (d.passed count n).random = Random.next^[if d.isDue then count else 0] d.random := by
  unfold passed
  rw [goals_snd]
  split <;> rfl

theorem interval_passed :
    (d.passed count n).interval = d.interval := by
  unfold passed
  rw [goals_snd]
  split <;> rfl

end Drawing

end Drift

end Polyphony
