/-!
# What is taken from libraries

Two things come from outside and are left open here.

* The logarithm to base two, by which a master tuning becomes a shift of pitch.  Of
  its values only the one at one is fixed.
* The numbers that a generator gives for a seed.  They follow from the seed alone,
  one after the other, so that a source of them is the sequence and a place in it.

Whatever depends on them holds for any of them.
-/

namespace Polyphony

/-- The functions of libraries that an engine uses. -/
structure Library where
  /-- The logarithm to base two. -/
  log2 : Float32 → Float32
  log2_one : log2 1.0 = 0.0
  /-- The numbers for a seed, from minus one up to one, in the order of the draws. -/
  numbers : UInt64 → Nat → Float32

/-- A source of random numbers. -/
structure Random where
  /-- The numbers in the order in which they are drawn. -/
  numbers : Nat → Float32
  /-- How many of them have been drawn. -/
  drawn : Nat := 0

namespace Random

/-- The source that a seed stands for. -/
def ofSeed (library : Library) (seed : UInt64) : Random :=
  { numbers := library.numbers seed }

/-- The number that is drawn next. -/
def symmetric (r : Random) : Float32 :=
  r.numbers r.drawn

/-- The source after a draw. -/
def next (r : Random) : Random :=
  { r with drawn := r.drawn + 1 }

end Random
end Polyphony
