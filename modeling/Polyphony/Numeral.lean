import Polyphony.Binary32.Basic

/-!
# Reading numbers

Numbers as a user writes them, read from the characters of a text.

* A whole number is a run of digits, perhaps behind a plus, below two to the
  power 64.  The first character that is at fault decides what is wrong.
* A decimal number has a sign, digits with or without a point, and a power of
  ten, most of which may be missing; infinity and NaN can be written as words.
  It is rounded once, to the nearest number.
-/

namespace Polyphony
namespace Numeral

section Whole

/-- Why a text is no whole number. -/
inductive WholeFault
  | empty
  | invalidDigit
  | tooLarge
deriving DecidableEq

namespace WholeFault

/-- What the user is told. -/
def message : WholeFault → String
  | empty => "cannot parse integer from empty string"
  | invalidDigit => "invalid digit found in string"
  | tooLarge => "number too large to fit in target type"

end WholeFault

/-- The value of a digit; the digits stand in a row, from the character 48 on. -/
def digit? (c : Char) : Option Nat :=
  if c.isDigit then some (c.toNat - 48) else none

/-- The first number that is too large. -/
def wholeLimit : Nat := Nat.pow 2 64

/-- Goes on to read a number from its digits. -/
def wholeFrom : Nat → List Char → Except WholeFault Nat
  | n, [] => .ok n
  | n, c :: cs =>
    match digit? c with
    | none => .error .invalidDigit
    | some d => if 10 * n + d < wholeLimit then wholeFrom (10 * n + d) cs else .error .tooLarge

/-- Reads a whole number. -/
def whole (text : String) : Except WholeFault Nat :=
  match text.toList with
  | [] => .error .empty
  | '+' :: cs => if cs.isEmpty then .error .invalidDigit else wholeFrom 0 cs
  | cs => wholeFrom 0 cs

end Whole

section Decimal

/-- The digits at the front of a text, and the rest. -/
def digits (cs : List Char) : List Nat × List Char :=
  ((cs.takeWhile Char.isDigit).filterMap digit?, cs.dropWhile Char.isDigit)

/-- The number that digits make. -/
def ofDigits (ds : List Nat) : Nat :=
  ds.foldl (fun n d => 10 * n + d) 0

/-- Reads a sign: whether it is a minus, and the rest. -/
def sign : List Char → Bool × List Char
  | '-' :: cs => (true, cs)
  | '+' :: cs => (false, cs)
  | cs => (false, cs)

/-- Reads the power of ten behind the digits; it must end the text. -/
def power? : List Char → Option Int
  | [] => some 0
  | c :: cs =>
    if c = 'e' ∨ c = 'E' then
      let (negative, cs) := sign cs
      match digits cs with
      | ([], _) => none
      | (_, _ :: _) => none
      | (ds, []) =>
        some (if negative then -(ofDigits ds : Int) else (ofDigits ds : Int))
    else none

/-- No number of the format has so many places before or behind the point. -/
def placeLimit : Int := 100

/--
The number nearest to `m * 10 ^ e`.  Far outside of the format's range it is
infinite or zero, whatever the digits.
-/
def scaled (m : Nat) (e : Int) : Float32 :=
  let place := (toString m).length + e
  if m = 0 ∨ place < -placeLimit then 0.0
  else if placeLimit < place then 1.0 / 0.0
  else Float32.ofScientific m (e < 0) e.natAbs

/-- Reads digits with or without a point, and a power of ten. -/
def unsigned? (cs : List Char) : Option Float32 :=
  let (whole, rest) := digits cs
  let (part, rest) :=
    match rest with
    | '.' :: rest => digits rest
    | rest => ([], rest)
  let all := whole ++ part
  if all.isEmpty then none
  else (power? rest).map fun e => scaled (ofDigits all) (e - part.length)

/-- The number that a word stands for, in capitals or not. -/
def word? (cs : List Char) : Option Float32 :=
  match String.ofList (cs.map Char.toLower) with
  | "inf" => some (1.0 / 0.0)
  | "infinity" => some (1.0 / 0.0)
  | "nan" => some (0.0 / 0.0)
  | _ => none

/-- Reads a decimal number. -/
def decimal? (text : String) : Option Float32 :=
  let (negative, cs) := sign text.toList
  let size := (word? cs).or (unsigned? cs)
  size.map fun x => if negative then -x else x

end Decimal

end Numeral
end Polyphony
