import Mathlib
import Polyphony.Binary32.Basic

/-!
# Zeros among the numbers of the binary32 format

There are two zeros, which compare as equal but differ in their bits.  What a
stream loses or gains when a bend at rest is left out of a sum is never more
than the sign of a zero.

**Packing.**  A number is determined by what it stands for, since packing that
again gives the same bits.  The arithmetic of the format is defined on what the
numbers stand for, so this is what carries a law of arithmetic over to the numbers
themselves.

**Results.**
* `sameNumber_add_zero`: adding a zero changes no number but for the sign of a
  zero.
* `SameNumber.add_right`: numbers that differ in the sign of a zero only still
  do so after the same amount has been added to both.
* `zero_mul_cases`: by a factor, zero becomes a zero or no number at all.
-/

namespace Polyphony
namespace Binary32

open Float.Model (Format UnpackedFloat)
open Float.Model.UnpackedFloat (Sign)

section Packing

/-- Packing what a number stands for gives the number. -/
theorem pack_unpack_toModel (x : Float32) :
    Float32.Model.pack x.toModel.unpack = x.toModel := by
  unfold Float32.Model.pack Float32.Model.unpack
  simp only [UnpackedFloat.pack_unpack_of_valid x.toModel.valid]

/-- A number is determined by what it stands for. -/
theorem eq_of_unpack_eq
    {x y : Float32}
    (h : x.toModel.unpack = y.toModel.unpack) :
    x = y := by
  have hmodel : x.toModel = y.toModel := by
    rw [← pack_unpack_toModel x, ← pack_unpack_toModel y, h]
  cases x
  cases y
  exact congrArg Float32.ofModel hmodel

/-- A sum is the packed sum of what its terms stand for. -/
theorem add_eq_pack (x y : Float32) :
    x + y = .ofModel (Float32.Model.pack
      (UnpackedFloat.add Format.binary32 x.toModel.unpack y.toModel.unpack)) := by
  rfl

/-- A product is the packed product of what its factors stand for. -/
theorem mul_eq_pack (x y : Float32) :
    x * y = .ofModel (Float32.Model.pack
      (UnpackedFloat.mul Format.binary32 x.toModel.unpack y.toModel.unpack)) := by
  rfl

end Packing

section Zeros

/-- What the zeros stand for. -/
theorem unpack_zero : (0.0 : Float32).toModel.unpack = .zero .positive := by
  rfl

theorem unpack_negZero : (-0.0 : Float32).toModel.unpack = .zero .negative := by
  rfl

/-- What stands for a zero is one of the two zeros. -/
theorem eq_zero_of_unpack
    {x : Float32} {s : Sign}
    (h : x.toModel.unpack = .zero s) :
    x = 0.0 ∨ x = -0.0 := by
  cases s with
  | positive => exact Or.inl (eq_of_unpack_eq h)
  | negative => exact Or.inr (eq_of_unpack_eq h)

/-- There are two zeros. -/
theorem beq_zero_iff (x : Float32) :
    (x == 0.0) = true ↔ x = 0.0 ∨ x = -0.0 := by
  constructor
  · intro h
    obtain ⟨_, _, hx⟩ := Float32.beq_iff_ne_nan_and_eq.1 h
    rcases hx with hx | ⟨hx, _⟩ | ⟨hx, _⟩
    · exact Or.inl hx
    · exact Or.inl hx
    · exact Or.inr hx
  · rintro (rfl | rfl)
    · decide
    · decide

/-- A number above zero does not compare as zero. -/
theorem not_beq_zero_of_pos
    {x : Float32}
    (h : 0.0 < x) :
    (x == 0.0) = false := by
  rw [Bool.eq_false_iff]
  intro hzero
  rcases (beq_zero_iff x).1 hzero with rfl | rfl
  · exact absurd h (by decide)
  · exact absurd h (by decide)

/-- A number that compares as zero stands for a zero. -/
theorem unpack_of_beq_zero
    {z : Float32}
    (h : (z == 0.0) = true) :
    ∃ s, z.toModel.unpack = .zero s := by
  rcases (beq_zero_iff z).1 h with rfl | rfl
  · exact ⟨_, unpack_zero⟩
  · exact ⟨_, unpack_negZero⟩

/-- Two numbers are equal up to the sign of a zero. -/
def SameNumber (x y : Float32) : Prop :=
  x = y ∨ ((x == 0.0) = true ∧ (y == 0.0) = true)

namespace SameNumber

theorem refl (x : Float32) : SameNumber x x :=
  Or.inl rfl

theorem symm
    {x y : Float32}
    (h : SameNumber x y) :
    SameNumber y x := by
  rcases h with h | ⟨hx, hy⟩
  · exact Or.inl h.symm
  · exact Or.inr ⟨hy, hx⟩

theorem trans
    {x y z : Float32}
    (h : SameNumber x y)
    (h' : SameNumber y z) :
    SameNumber x z := by
  rcases h with rfl | ⟨hx, hy⟩
  · exact h'
  · rcases h' with rfl | ⟨_, hz⟩
    · exact Or.inr ⟨hx, hy⟩
    · exact Or.inr ⟨hx, hz⟩

end SameNumber

/-- A sum with a zero: a zero for a zero, and else the other term. -/
theorem sameNumber_add_zero
    (x : Float32) {z : Float32}
    (hz : (z == 0.0) = true) :
    SameNumber (x + z) x := by
  obtain ⟨s, hs⟩ := unpack_of_beq_zero hz
  have hself : Float32.ofModel (Float32.Model.pack x.toModel.unpack) = x := by
    rw [pack_unpack_toModel]
  cases hx : x.toModel.unpack with
  | zero t =>
      refine Or.inr ⟨?_, (beq_zero_iff x).2 (eq_zero_of_unpack hx)⟩
      rw [add_eq_pack, hx, hs]
      cases s <;> cases t <;> decide
  | notANumber =>
      rw [hx] at hself
      rw [add_eq_pack, hx, hs]
      exact Or.inl hself
  | infinity t =>
      rw [hx] at hself
      rw [add_eq_pack, hx, hs]
      exact Or.inl hself
  | finite t m e hm =>
      rw [hx] at hself
      rw [add_eq_pack, hx, hs]
      exact Or.inl hself

/-- A zero may stand on either side of a sum. -/
theorem zero_add_comm
    {z : Float32} (x : Float32)
    (hz : (z == 0.0) = true) :
    z + x = x + z := by
  obtain ⟨s, hs⟩ := unpack_of_beq_zero hz
  rw [add_eq_pack, add_eq_pack, hs]
  cases x.toModel.unpack with
  | zero t => cases s <;> cases t <;> rfl
  | notANumber => rfl
  | infinity t => rfl
  | finite t m e hm => rfl

/-- Adding one amount to both keeps two numbers equal up to the sign of a zero. -/
theorem SameNumber.add_right
    {x y : Float32}
    (h : SameNumber x y)
    (amount : Float32) :
    SameNumber (x + amount) (y + amount) := by
  rcases h with rfl | ⟨hx, hy⟩
  · exact SameNumber.refl _
  · rw [zero_add_comm amount hx, zero_add_comm amount hy]
    exact (sameNumber_add_zero amount hx).trans (sameNumber_add_zero amount hy).symm

/-- By a factor, zero becomes a zero or no number. -/
theorem zero_mul_cases (x : Float32) :
    0.0 * x = 0.0 ∨ 0.0 * x = -0.0 ∨ 0.0 * x = 0.0 / 0.0 := by
  rw [mul_eq_pack, unpack_zero]
  cases hx : x.toModel.unpack with
  | zero t => cases t <;> decide
  | notANumber => decide
  | infinity t => cases t <;> decide
  | finite t m e hm =>
      cases t with
      | positive =>
          left
          rfl
      | negative =>
          right
          left
          rfl

end Zeros

end Binary32
end Polyphony
