/-!
# Limits

What can be counted, and what fits into one piece of memory.  Signals, buffers,
recordings and banks of voices are as large as they are asked to be, up to here.

**Overflow.**  A sum of counts that is greater than all counts either ends the
program or begins anew at zero, depending on how the program is built.  A sum that is
not is exact in either case.
-/

namespace Polyphony

/-- The greatest number that a count can have. -/
def maxCount : Nat := Nat.pow 2 64 - 1

/-- What becomes of a sum that is greater than all counts. -/
inductive Overflow
  /-- It ends the program. -/
  | stops
  /-- It begins anew at zero. -/
  | wraps
deriving DecidableEq

/-- The sum of two counts, if there is one. -/
def Overflow.add? (o : Overflow) (a b : Nat) : Option Nat :=
  if a + b ≤ maxCount then some (a + b)
  else
    match o with
    | stops => none
    | wraps => some ((a + b) % (maxCount + 1))

/-- A sum that can be counted is exact. -/
theorem Overflow.add?_of_le
    {a b : Nat}
    (h : a + b ≤ maxCount)
    (o : Overflow) :
    o.add? a b = some (a + b) :=
  if_pos h

/-- The greatest number of bytes in one piece of memory. -/
def maxBytes : Nat := Nat.pow 2 63 - 1

/-- Whether a number of things, each of a size in bytes, fit into one piece of memory. -/
def FitsMemory (count size : Nat) : Prop :=
  count * size ≤ maxBytes

instance (count size : Nat) : Decidable (FitsMemory count size) :=
  inferInstanceAs (Decidable (_ ≤ _))

/-- With a number of things every smaller number of them fits into memory. -/
theorem FitsMemory.mono
    {m n size : Nat}
    (h : FitsMemory n size)
    (hmn : m ≤ n) :
    FitsMemory m size :=
  Nat.le_trans (Nat.mul_le_mul_right size hmn) h

end Polyphony
