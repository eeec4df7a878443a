import Polyphony.Proofs.Binary32.Zero

/-!
# Numbers that are not negative

A time in seconds is at least zero: where a negative time or none at all is asked
for, zero is put in its place.  A number that is neither negative nor NaN is left
as it is.

**Signs.**  Rounding never changes a sign, and neither does packing, since the sign
has a bit of its own.  So a quotient of positive numbers is no negative number,
even if it is rounded to zero or has become too great.

**Results.**
* `NonNegative.larger_zero`: a number that is not negative is not raised to zero.
* `nonNegative_div`: the quotient of positive finite numbers is not negative.
-/

namespace Polyphony
namespace Binary32

open Float.Model (Format UnpackedFloat)
open Float.Model.UnpackedFloat (Sign unpack pack packComponents unpackSign roundWithAccuracy
  unpackMantissa_packComponents unpackExponent_packComponents)

section Signs

variable {spec : Format} {x y : Float32}

/-- What stands for a number of a sign. -/
def HasSign (s : Sign) : UnpackedFloat → Prop
  | .notANumber => False
  | .infinity t => t = s
  | .zero t => t = s
  | .finite t _ _ _ => t = s

theorem unpackSign_packComponents
    (s : Sign)
    (exponent : BitVec spec.exponentBits)
    (mantissa : BitVec spec.mantissaBitsWithoutImplicit) :
    unpackSign (packComponents spec s exponent mantissa) = s.toBitVec := by
  have hsign :
      (packComponents spec s exponent mantissa).getLsbD
          (spec.mantissaBitsWithoutImplicit + spec.exponentBits)
        = s.toBitVec.getLsbD 0 := by
    unfold packComponents
    rw [BitVec.getLsbD_append, if_neg (by omega), BitVec.getLsbD_append, if_neg (by omega)]
    congr 1
    omega
  ext bit hbit
  obtain rfl : bit = 0 := Nat.lt_one_iff.1 hbit
  simpa [unpackSign] using hsign

/-- A pattern that is not one of NaN has the sign of its sign bit. -/
theorem hasSign_unpack_packComponents
    (s : Sign)
    {exponent : BitVec spec.exponentBits}
    {mantissa : BitVec spec.mantissaBitsWithoutImplicit}
    (h : exponent = -1#_ → mantissa = 0#_) :
    HasSign s (unpack spec (packComponents spec s exponent mantissa)) := by
  have hsign : Sign.ofBitVec s.toBitVec = s := by
    cases s <;> rfl
  unfold unpack
  simp only [unpackMantissa_packComponents, unpackExponent_packComponents,
    unpackSign_packComponents, hsign]
  by_cases hones : exponent = -1#_
  · rw [if_pos hones, if_pos (h hones)]
    rfl
  · rw [if_neg hones]
    split
    · split <;> rfl
    · rfl

/-- An exponent that fits is not the one of infinities. -/
theorem ofNat_ne_ones
    {biased : Nat}
    (h : biased + 1 < 2 ^ spec.exponentBits) :
    BitVec.ofNat spec.exponentBits biased ≠ -1#_ := by
  intro heq
  have hnat := congrArg BitVec.toNat heq
  rw [BitVec.toNat_ofNat, BitVec.neg_one_eq_allOnes, BitVec.toNat_allOnes,
    Nat.mod_eq_of_lt (by omega)] at hnat
  omega

/-- Packing keeps the sign. -/
theorem hasSign_unpack_pack
    {s : Sign} {u : UnpackedFloat}
    (h : HasSign s u) :
    HasSign s (unpack spec (pack spec u)) := by
  cases u with
  | notANumber => exact h.elim
  | infinity t =>
      obtain rfl : t = s := h
      exact hasSign_unpack_packComponents t fun _ => rfl
  | zero t =>
      obtain rfl : t = s := h
      exact hasSign_unpack_packComponents t fun _ => rfl
  | finite t m e hm =>
      obtain rfl : t = s := h
      have hbits : 0 + 1 < 2 ^ spec.exponentBits :=
        Nat.one_lt_two_pow (Nat.pos_iff_ne_zero.1 spec.he)
      unfold pack
      dsimp only
      split
      case isTrue => exact hasSign_unpack_packComponents t fun _ => rfl
      case isFalse hfits =>
        split
        · exact hasSign_unpack_packComponents t fun hones =>
            absurd hones (ofNat_ne_ones (by omega))
        · exact hasSign_unpack_packComponents t fun hones =>
            absurd hones (ofNat_ne_ones hbits)

/-- One number is below another if what it stands for is. -/
theorem lt_iff_unpack (x y : Float32) :
    x < y ↔ UnpackedFloat.lt x.toModel.unpack y.toModel.unpack = true :=
  decide_eq_true_iff

/-- A finite number above zero stands for one. -/
theorem exists_unpack_of_pos
    (hfinite : x.isFinite = true)
    (hpos : 0.0 < x) :
    ∃ m e hm, x.toModel.unpack = .finite .positive m e hm := by
  have hfinite' : x.toModel.unpack.isFinite = true := hfinite
  rw [lt_iff_unpack, unpack_zero] at hpos
  cases hx : x.toModel.unpack with
  | notANumber =>
      rw [hx] at hfinite'
      cases hfinite'
  | infinity t =>
      rw [hx] at hfinite'
      cases hfinite'
  | zero t =>
      rw [hx] at hpos
      cases hpos
  | finite t m e hm =>
      cases t with
      | positive => exact ⟨m, e, hm, rfl⟩
      | negative =>
          rw [hx] at hpos
          cases hpos

/-- A finite number that is not below a positive one is positive. -/
theorem pos_of_not_lt
    (hx : x.isFinite = true)
    (hy : y.isFinite = true)
    (hpos : 0.0 < y)
    (h : ¬ x < y) :
    0.0 < x := by
  obtain ⟨k, f, hk, hy⟩ := exists_unpack_of_pos hy hpos
  have hx' : x.toModel.unpack.isFinite = true := hx
  rw [lt_iff_unpack, hy] at h
  rw [lt_iff_unpack, unpack_zero]
  cases hx : x.toModel.unpack with
  | notANumber =>
      rw [hx] at hx'
      cases hx'
  | infinity t =>
      rw [hx] at hx'
      cases hx'
  | zero t =>
      rw [hx] at h
      exact absurd rfl h
  | finite t m e hm =>
      cases t with
      | positive => rfl
      | negative =>
          rw [hx] at h
          exact absurd rfl h

/-- A number that is neither negative nor NaN. -/
structure NonNegative (x : Float32) : Prop where
  isNumber : x.isNaN = false
  not_lt : ¬ x < 0.0

/-- A number without a sign bit is not negative. -/
theorem nonNegative_of_hasSign
    (h : HasSign .positive x.toModel.unpack) :
    NonNegative x := by
  have hnan : x.isNaN = x.toModel.unpack.isNaN := rfl
  constructor
  · rw [hnan]
    cases hx : x.toModel.unpack with
    | notANumber =>
        rw [hx] at h
        exact h.elim
    | infinity t => rfl
    | zero t => rfl
    | finite t m e hm => rfl
  · rw [lt_iff_unpack, unpack_zero]
    cases hx : x.toModel.unpack with
    | notANumber =>
        rw [hx] at h
        exact h.elim
    | infinity t =>
        rw [hx] at h
        obtain rfl : t = .positive := h
        decide
    | zero t => cases t <;> decide
    | finite t m e hm =>
        rw [hx] at h
        obtain rfl : t = .positive := h
        simp [UnpackedFloat.lt, UnpackedFloat.compare]

/-- A number that is not negative is not raised to zero. -/
theorem NonNegative.larger_zero
    (h : NonNegative x) :
    larger x 0.0 = x := by
  have hzero : (0.0 : Float32).isNaN = false := by
    decide
  unfold larger
  rw [h.isNumber, hzero, if_neg h.not_lt]
  rfl

/-- A number that is neither negative nor above zero is a zero. -/
theorem NonNegative.beq_zero
    (h : NonNegative x)
    (hnot : ¬ 0.0 < x) :
    (x == 0.0) = true := by
  have hnumber : x.toModel.unpack.isNaN = false := h.isNumber
  have hbelow := h.not_lt
  rw [lt_iff_unpack, unpack_zero] at hbelow hnot
  cases hx : x.toModel.unpack with
  | notANumber =>
      rw [hx] at hnumber
      cases hnumber
  | infinity t =>
      rw [hx] at hbelow hnot
      cases t with
      | positive => exact absurd rfl hnot
      | negative => exact absurd rfl hbelow
  | zero t => exact (beq_zero_iff x).2 (eq_zero_of_unpack hx)
  | finite t m e hm =>
      rw [hx] at hbelow hnot
      cases t with
      | positive => exact absurd rfl hnot
      | negative => exact absurd rfl hbelow

/-- A quotient is the packed quotient of what its terms stand for. -/
theorem div_eq_pack (x y : Float32) :
    x / y = .ofModel (Float32.Model.pack
      (UnpackedFloat.div Format.binary32 x.toModel.unpack y.toModel.unpack)) := by
  rfl

/-- The quotient of positive numbers is not negative. -/
theorem nonNegative_div
    (hx : x.isFinite = true) (hxpos : 0.0 < x)
    (hy : y.isFinite = true) (hypos : 0.0 < y) :
    NonNegative (x / y) := by
  obtain ⟨m, e, hm, hx⟩ := exists_unpack_of_pos hx hxpos
  obtain ⟨k, f, hk, hy⟩ := exists_unpack_of_pos hy hypos
  have hquotient :
      HasSign .positive
        (UnpackedFloat.div Format.binary32 (.finite .positive m e hm) (.finite .positive k f hk)) := by
    -- rounding ends in a zero or a finite number, both of the sign it was given
    unfold UnpackedFloat.div roundWithAccuracy
    dsimp only
    split <;> rfl
  rw [div_eq_pack, hx, hy]
  exact nonNegative_of_hasSign (hasSign_unpack_pack hquotient)

end Signs

end Binary32
end Polyphony
