import Mathlib
import Polyphony.Binary32.Basic

/-!
# The order of the binary32 format

Numbers of the format compare by class, then by exponent, then by significand.  What
is no number compares with nothing, so that comparing is not an order; it becomes
one when what is no number is put above all numbers.

**Result.**
* `lt_iff_rank_lt`: a number is less than another one exactly if its rank is.
-/

namespace Polyphony
namespace Binary32

open Float.Model (UnpackedFloat)
open Float.Model.UnpackedFloat (Sign)

/-- What decides how a number compares: its class, and within it two integers. -/
abbrev Rank : Type :=
  Int ×ₗ Int ×ₗ Int

section Ranks

/-- The rank of what a number stands for; what is no number is above all numbers. -/
def rankOf : UnpackedFloat → Rank
  | .infinity .negative => toLex (-2, toLex (0, 0))
  | .finite .negative m e _ => toLex (-1, toLex (-e, -(m : Int)))
  | .zero _ => toLex (0, toLex (0, 0))
  | .finite .positive m e _ => toLex (1, toLex (e, (m : Int)))
  | .infinity .positive => toLex (2, toLex (0, 0))
  | .notANumber => toLex (3, toLex (0, 0))

/-- The rank of a number. -/
def rank (x : Float32) : Rank :=
  rankOf x.toModel.unpack

theorem toLex_lt_iff (a b c a' b' c' : Int) :
    (toLex (a, toLex (b, c)) : Rank) < toLex (a', toLex (b', c'))
      ↔ a < a' ∨ a = a' ∧ (b < b' ∨ b = b' ∧ c < c') := by
  rw [Prod.Lex.toLex_lt_toLex, Prod.Lex.toLex_lt_toLex]

/-- Exponents are compared first, and significands if the exponents are equal. -/
theorem then_eq_lt_iff (e e' : Int) (m m' : Nat) :
    (compare e e').then (compare m m') = .lt ↔ e < e' ∨ e = e' ∧ m < m' := by
  rw [Ordering.then_eq_lt, Int.compare_eq_lt, Int.compare_eq_eq, Nat.compare_eq_lt]

theorem then_eq_gt_iff (e e' : Int) (m m' : Nat) :
    (compare e e').then (compare m m') = .gt ↔ e' < e ∨ e = e' ∧ m' < m := by
  rw [Ordering.then_eq_gt, Int.compare_eq_gt, Int.compare_eq_eq, Nat.compare_eq_gt]

theorem compare_eq_lt_iff (x y : UnpackedFloat) :
    x.compare y = some .lt ↔ y.isNaN = false ∧ rankOf x < rankOf y := by
  have hsigns : compare Sign.negative Sign.positive = .lt := by
    decide
  -- numbers of different classes compare by the classes alone
  rcases x with (_ | _) | _ | _ | ⟨_ | _, m, e, _⟩ <;>
    rcases y with (_ | _) | _ | _ | ⟨_ | _, m', e', _⟩ <;>
    simp [UnpackedFloat.compare, UnpackedFloat.isNaN, rankOf, toLex_lt_iff, then_eq_lt_iff,
      then_eq_gt_iff, hsigns]

theorem lt_iff_compare (x y : Float32) :
    x < y ↔ x.toModel.unpack.compare y.toModel.unpack = some .lt := by
  show decide ((x.toModel.unpack.compare y.toModel.unpack == some .lt) = true) = true ↔ _
  rw [decide_eq_true_iff, beq_iff_eq]

/-- A number is less than another one exactly if its rank is. -/
theorem lt_iff_rank_lt (x y : Float32) :
    x < y ↔ y.isNaN = false ∧ rank x < rank y :=
  (lt_iff_compare x y).trans (compare_eq_lt_iff _ _)

/-- What is no number is not less than anything. -/
theorem isNaN_of_lt
    {x y : Float32}
    (h : x < y) :
    x.isNaN = false := by
  have hcompare := (lt_iff_compare x y).1 h
  show x.toModel.unpack.isNaN = false
  cases hx : x.toModel.unpack with
  | notANumber =>
      rw [hx] at hcompare
      cases hcompare
  | infinity s => rfl
  | zero s => rfl
  | finite s m e hpos => rfl

end Ranks

end Binary32
end Polyphony
