import Polyphony.Notes.Displaced
import Polyphony.Notes.Held
import Polyphony.Voice.Basic

/-!
# Notes up to their times

An engine stamps the notes that it remembers with times and the voices with
ages, but what it does next hardly depends on either.  Here notes, tables and
tenancies are looked at without them.
-/

namespace Polyphony

namespace Event

/-- An event up to its time. -/
def timeless (e : Event) : Event :=
  e.moveTo 0

/-- An event as it looks some samples later. -/
def sooner (e : Event) (k : Nat) : Event :=
  e.moveTo (e.time - k)

@[simp] theorem timeless_sooner (e : Event) (k : Nat) :
    (e.sooner k).timeless = e.timeless := by
  rfl

theorem source_eq_of_timeless
    {a b : Event}
    (h : a.timeless = b.timeless) :
    a.source = b.source := by
  have hsource := congrArg Event.source h
  exact hsource

end Event

namespace Tenancy

/-- A tenancy up to its age. -/
def ageless (tn : Tenancy) : Tenancy :=
  { tn with age := 0 }

/-- A tenancy up to its age and the time of its event. -/
def essence (tn : Tenancy) : Tenancy :=
  { tn with age := 0, event := tn.event.timeless }

/-- What can be told from the essences of two tenancies. -/
theorem of_essence_eq
    {a b : Tenancy}
    (h : a.essence = b.essence) :
    a.phase = b.phase ∧ a.owner = b.owner ∧ a.channel = b.channel ∧ a.note = b.note
      ∧ a.originY = b.originY ∧ a.event.timeless = b.event.timeless := by
  unfold essence at h
  injection h with hphase howner hchannel hnote _ horigin hevent
  exact ⟨hphase, howner, hchannel, hnote, horigin, hevent⟩

end Tenancy

namespace HeldNotes

/-- A table up to the times of its notes. -/
def timeless (h : HeldNotes) : HeldNotes :=
  { slots := h.slots.map (Option.map Event.timeless) }

theorem timeless_put (h : HeldNotes) (slot : Nat) (e : Event) :
    (h.put slot e).timeless = h.timeless.put slot e.timeless := by
  unfold timeless put
  rw [List.map_set]
  rfl

theorem timeless_forget (h : HeldNotes) (source : UInt32) :
    (h.forget source).timeless = h.timeless.forget source := by
  unfold timeless forget
  rw [List.map_map, List.map_map]
  congr 1
  refine List.map_congr_left ?_
  intro slot _
  cases slot with
  | none => rfl
  | some n =>
      show ((some n).filter fun n => n.source != source).map Event.timeless
        = (some n.timeless).filter fun n => n.source != source
      simp only [Option.filter_some]
      split
      case isTrue hkeep => exact (if_pos hkeep).symm
      case isFalse hdrop => exact (if_neg hdrop).symm

theorem freeSlot?_timeless (h : HeldNotes) :
    h.timeless.freeSlot? = h.freeSlot? := by
  unfold freeSlot? timeless
  rw [List.findIdx?_map]
  congr 1
  funext slot
  cases slot <;> rfl

end HeldNotes

namespace DisplacedNotes

/-- A stack up to the times of its notes. -/
def timeless (d : DisplacedNotes) : DisplacedNotes :=
  { notes := d.notes.map Event.timeless }

theorem timeless_push (d : DisplacedNotes) (e : Event) :
    (d.push e).timeless = d.timeless.push e.timeless := by
  have hfull : d.timeless.isFull = d.isFull := by
    simp [isFull, timeless]
  unfold push
  rw [hfull]
  split
  · rfl
  · rfl

theorem timeless_pop (d : DisplacedNotes) :
    d.pop.timeless = d.timeless.pop := by
  unfold pop timeless
  rw [List.map_tail]

theorem timeless_forget (d : DisplacedNotes) (source : UInt32) :
    (d.forget source).timeless = d.timeless.forget source := by
  unfold forget timeless
  rw [List.filter_map]
  rfl

theorem top?_timeless (d : DisplacedNotes) :
    d.timeless.top? = d.top?.map Event.timeless := by
  unfold top? timeless
  rw [List.head?_map]

end DisplacedNotes

end Polyphony
