import Polyphony.Event

/-!
# The table of held notes

The engine remembers the note-on of every key that is down, in a table of 32
slots.  A note takes the lowest free slot and keeps it until its source is
removed.
-/

namespace Polyphony

/-- The number of slots of the table. -/
def maxHeldNotes : Nat := 32

/-- The note-ons of the keys that are down, by slot. -/
structure HeldNotes where
  /-- The slots; a free one holds nothing. -/
  slots : List (Option Event) := List.replicate maxHeldNotes none
deriving DecidableEq, Inhabited

namespace HeldNotes

/-- A table of free slots. -/
def empty : HeldNotes := {}

/-- The notes in the table, in slot order. -/
def notes (h : HeldNotes) : List Event :=
  h.slots.reduceOption

/-- The number of notes in the table. -/
def length (h : HeldNotes) : Nat :=
  h.notes.length

/-- Whether every slot is free. -/
def isEmpty (h : HeldNotes) : Bool :=
  h.slots.all Option.isNone

/-- The lowest free slot. -/
def freeSlot? (h : HeldNotes) : Option Nat :=
  h.slots.findIdx? Option.isNone

/-- Puts a note into a slot. -/
def put (h : HeldNotes) (slot : Nat) (e : Event) : HeldNotes :=
  { slots := h.slots.set slot (some e) }

/-- Puts a note into the lowest free slot; a full table stays as it is. -/
def insert (h : HeldNotes) (e : Event) : HeldNotes :=
  match h.freeSlot? with
  | some slot => h.put slot e
  | none => h

/-- Frees every slot with a note of `source`. -/
def forget (h : HeldNotes) (source : UInt32) : HeldNotes :=
  { slots := h.slots.map (Option.filter fun e => e.source != source) }

@[simp] theorem slots_length_put (h : HeldNotes) (slot : Nat) (e : Event) :
    (h.put slot e).slots.length = h.slots.length := by
  simp [put]

@[simp] theorem slots_length_forget (h : HeldNotes) (source : UInt32) :
    (h.forget source).slots.length = h.slots.length := by
  simp [forget]

end HeldNotes
end Polyphony
