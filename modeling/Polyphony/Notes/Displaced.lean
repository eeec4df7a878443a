import Polyphony.Event

/-!
# The stack of displaced notes

When all voices play one note in unison, a new note displaces the one that
sounds.  The displaced notes wait on a stack, and the most recent one comes back
when the note above it is released.
-/

namespace Polyphony

/-- The greatest number of displaced notes. -/
def maxDisplacedNotes : Nat := 32

/-- Notes that wait below the sounding one. -/
structure DisplacedNotes where
  /-- The waiting notes, the most recent one first. -/
  notes : List Event := []
deriving DecidableEq, Inhabited

namespace DisplacedNotes

/-- A stack without notes. -/
def empty : DisplacedNotes := {}

/-- The number of waiting notes. -/
def length (d : DisplacedNotes) : Nat :=
  d.notes.length

/-- Whether no note is waiting. -/
def isEmpty (d : DisplacedNotes) : Bool :=
  d.notes.isEmpty

/-- The waiting notes in the order in which they were displaced. -/
def inOrder (d : DisplacedNotes) : List Event :=
  d.notes.reverse

/-- Whether there is no room for another note. -/
def isFull (d : DisplacedNotes) : Bool :=
  maxDisplacedNotes ≤ d.notes.length

/-- Puts a note on the stack; a full stack stays as it is. -/
def push (d : DisplacedNotes) (e : Event) : DisplacedNotes :=
  if d.isFull then d else { notes := e :: d.notes }

/-- The most recent note. -/
def top? (d : DisplacedNotes) : Option Event :=
  d.notes.head?

/-- The stack without its most recent note. -/
def pop (d : DisplacedNotes) : DisplacedNotes :=
  { notes := d.notes.tail }

/-- Forgets every note of `source`; the others keep their order. -/
def forget (d : DisplacedNotes) (source : UInt32) : DisplacedNotes :=
  { notes := d.notes.filter fun e => e.source != source }

/-- With room, a pushed note is the last in order. -/
theorem inOrder_push
    {d : DisplacedNotes} {e : Event}
    (h : d.isFull = false) :
    (d.push e).inOrder = d.inOrder ++ [e] := by
  simp [push, inOrder, h]

end DisplacedNotes
end Polyphony
