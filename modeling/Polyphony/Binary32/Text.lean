import Polyphony.Binary32.Basic

/-!
# Decimal text of a number

Two ways to write a number down.

* `plainText` writes the fewest digits that still identify the number, always
  in positional notation: `0.8`, `-0.75`, `0.000001`, `16777216`.
* `fixedText` writes a given number of decimal places, the exact value rounded
  with halves going to the even neighbour.

**Method of the first.**  The reals that round to a number form an interval
around it, whose ends belong to it exactly when the significand is even.  On a
decimal grid `10 ^ p` only the two neighbours of the number can be the nearest
point of the grid, so the grid meets the interval exactly when one of the two
lies inside.  The coarsest grid that meets the interval gives the digits; of
two hits the nearer is taken, and of two at equal distance the upper one.
-/

namespace Polyphony
namespace Binary32

/-- `base ^ e`, or one if the exponent is negative. -/
def raised (base : Nat) (e : Int) : Nat :=
  Nat.pow base e.toNat

/--
The point of the grid `10 ^ p` that identifies `significand * 2 ^ exponent`,
if there is one.  Everything is measured in quarters of the number's last
place, which makes the ends of its interval whole.
-/
def gridPoint?
    (significand : Nat)
    (exponent p : Int) :
    Option Nat :=
  let narrow := significand = Nat.pow 2 23 ∧ -149 < exponent
  let up := raised 2 (exponent - 2) * raised 10 (-p)
  let down := raised 2 (2 - exponent) * raised 10 p
  let value := 4 * significand * up
  let low := (4 * significand - if narrow then 1 else 2) * up
  let high := (4 * significand + 2) * up
  let closed := significand % 2 = 0
  let above (d : Nat) : Bool :=
    if closed then decide (low ≤ d * down) else decide (low < d * down)
  let below (d : Nat) : Bool :=
    if closed then decide (d * down ≤ high) else decide (d * down < high)
  let d := value / down
  match above d, below (d + 1) with
  | true, true => some (if 2 * (value % down) < down then d else d + 1)
  | true, false => some d
  | false, true => some (d + 1)
  | false, false => none

/--
The coarsest of the next `count` grids that meets the interval, with its
point.  Nine digits identify every number of the format.
-/
def coarsest
    (significand : Nat)
    (exponent : Int) :
    Nat → Int → Nat × Int
  | 0, p => (significand, p)
  | count + 1, p =>
    match gridPoint? significand exponent p with
    | some d => (d, p)
    | none => coarsest significand exponent count (p - 1)

/-- The digits `d` and the power `p` of the shortest decimal `d * 10 ^ p`. -/
def shortest
    (significand : Nat)
    (exponent : Int) :
    Nat × Int :=
  coarsest significand exponent 14 ((exponent + 24) * 30103 / 100000 + 1)

/-- A string of `n` zeros. -/
def zeros (n : Nat) : String :=
  String.ofList (List.replicate n '0')

/-- The decimal `d * 10 ^ p` in positional notation. -/
def positional (d : Nat) (p : Int) : String :=
  let digits := (toString d).toList
  if 0 ≤ p then toString d ++ zeros p.toNat
  else
    let places := (-p).toNat
    let padded := List.replicate (places + 1 - digits.length) '0' ++ digits
    let whole := padded.length - places
    String.ofList (padded.take whole) ++ "." ++ String.ofList (padded.drop whole)

/-- The sign of a text: a minus, or, where every number shows its sign, a plus. -/
def signText (negative signed : Bool) : String :=
  if negative then "-" else if signed then "+" else ""

/-- The fewest digits that identify the number, in positional notation. -/
def plainText (x : Float32) : String :=
  match parts x with
  | .nan => "NaN"
  | .infinite negative => signText negative false ++ "inf"
  | .finite negative 0 _ => signText negative false ++ "0"
  | .finite negative significand exponent =>
    let (d, p) := shortest significand exponent
    signText negative false ++ positional d p

/-- The quotient of two whole numbers, rounded with halves going to even. -/
def roundedQuotient (num den : Nat) : Nat :=
  let q := num / den
  let r := num % den
  if den < 2 * r ∨ (2 * r = den ∧ q % 2 = 1) then q + 1 else q

/-- The number with `places` decimal places; `signed` shows a plus as well. -/
def fixedText (places : Nat) (signed : Bool) (x : Float32) : String :=
  match parts x with
  | .nan => "NaN"
  | .infinite negative => signText negative signed ++ "inf"
  | .finite negative significand exponent =>
    let num := significand * raised 2 exponent * Nat.pow 10 places
    let den := raised 2 (-exponent)
    signText negative signed ++ positional (roundedQuotient num den) (-(places : Int))

/-- The plain text depends on the bit pattern only. -/
theorem plainText_eq_of_toBits_eq
    {x y : Float32}
    (h : x.toBits = y.toBits) :
    plainText x = plainText y := by
  simp [plainText, parts_eq_of_toBits_eq h]

end Binary32
end Polyphony
