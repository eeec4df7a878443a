/-!
# Numbers of the binary32 format

Samples, note numbers, glide times and tunings are all 32-bit floating-point
numbers.  This module holds what the rest of the library needs beyond their
arithmetic:

* the larger and the smaller of two numbers, where a NaN gives way;
* rounding to the nearest integer;
* the parts of a number, read off its bit pattern.

The parts of a finite number are a sign, a whole significand and a power of
two, so everything said about them is exact.
-/

namespace Polyphony
namespace Binary32

/-- The larger of two numbers; a NaN gives way to the other one. -/
def larger (x y : Float32) : Float32 :=
  if x.isNaN then y
  else if y.isNaN then x
  else if x < y then y
  else x

/-- The smaller of two numbers; a NaN gives way to the other one. -/
def smaller (x y : Float32) : Float32 :=
  if x.isNaN then y
  else if y.isNaN then x
  else if y < x then y
  else x

/--
The nearest integer; a half goes away from zero.  From two to the power 23 on
every number is an integer already, and NaN stays NaN.
-/
def roundHalfAway (x : Float32) : Float32 :=
  if x.abs < 8388608.0 then
    let whole := x.abs.toUInt32.toFloat32
    let rounded := if 0.5 ≤ x.abs - whole then whole + 1.0 else whole
    if x < 0.0 then -rounded else rounded
  else x

/-- What a bit pattern of the format stands for. -/
inductive Parts
  /-- Not a number. -/
  | nan
  /-- An infinity of the given sign. -/
  | infinite (negative : Bool)
  /-- The number `significand * 2 ^ exponent`, with a sign. -/
  | finite (negative : Bool) (significand : Nat) (exponent : Int)
deriving DecidableEq

/--
The parts of a number.  One sign bit, eight bits of exponent and 23 bits of
fraction; the smallest exponent holds zero and the numbers without a leading
one, the largest the infinities and NaN.
-/
def parts (x : Float32) : Parts :=
  let bits : Nat := x.toBits.toNat
  let negative := decide (Nat.pow 2 31 ≤ bits)
  let biased : Nat := bits / Nat.pow 2 23 % Nat.pow 2 8
  let fraction : Nat := bits % Nat.pow 2 23
  if biased = 255 then
    if fraction = 0 then .infinite negative else .nan
  else if biased = 0 then .finite negative fraction (-149)
  else .finite negative (Nat.pow 2 23 + fraction) ((biased : Int) - 150)

/-- Numbers of one bit pattern have the same parts. -/
theorem parts_eq_of_toBits_eq
    {x y : Float32}
    (h : x.toBits = y.toBits) :
    parts x = parts y := by
  simp [parts, h]

end Binary32
end Polyphony
