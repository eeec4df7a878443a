import Mathlib.Data.List.Induction
import Mathlib.Data.List.Nodup
import Mathlib.Data.List.ReduceOption
import Polyphony.Proofs.Notes.Held

/-!
# Which note stands in which slot

Three things are asked of the table of held notes: to take a note, to forget a
source, and to be cleared.

**Standing notes.**  A note stands after some requests if one of them brought it
while a slot was free, and none of the later ones forgot its source or cleared the
table.  Which notes stand, and in which slots, is counted from the requests and
from the slots given out, never from what the table holds.

**Results.**
* `standing_concat`: a request ends some of the notes that stand, and brings at most
  one.
* `Stands.comply`: whatever is asked for, each note that stands is in the slot that it
  got, and the table holds nothing else.
* `holds_standing`: so it is after any requests; a note gets the lowest slot in
  which none stands, and is refused exactly if 32 stand.
-/

namespace Polyphony
namespace HeldNotes

section Requests

/-- What can be asked of a table. -/
inductive Request
  /-- Take a note. -/
  | insert (e : Event)
  /-- Free every slot with a note of a source. -/
  | forget (source : UInt32)
  /-- Free every slot. -/
  | clear

/-- Whether a request ends a note. -/
def Request.ends (e : Event) : Request → Bool
  | .insert _ => false
  | .forget source => e.source == source
  | .clear => true

/-- The table after a request. -/
def comply (h : HeldNotes) : Request → HeldNotes
  | .insert e => h.insert e
  | .forget source => h.forget source
  | .clear => empty

/-- The note that a request brings, with the slot given out for it. -/
def arrival? (h : HeldNotes) : Request → Option (Nat × Event)
  | .insert e => h.freeSlot?.map fun slot => (slot, e)
  | .forget _ => none
  | .clear => none

/-- The table after requests, when it was empty before them. -/
def after (requests : List Request) : HeldNotes :=
  requests.foldl comply empty

/-- The arrivals of requests that no later one has ended, in order. -/
def standingFrom : HeldNotes → List Request → List (Nat × Event)
  | _, [] => []
  | h, r :: rs =>
      ((h.arrival? r).toList.filter fun (_, e) => !rs.any (Request.ends e))
        ++ standingFrom (h.comply r) rs

/-- The notes that stand after requests, each with its slot, in the order of arrival. -/
def standing (requests : List Request) : List (Nat × Event) :=
  standingFrom empty requests

theorem after_concat (rs : List Request) (r : Request) :
    after (rs ++ [r]) = (after rs).comply r := by
  simp [after]

theorem standingFrom_concat
    (h : HeldNotes) (rs : List Request) (r : Request) :
    standingFrom h (rs ++ [r])
      = ((standingFrom h rs).filter fun (_, e) => !r.ends e)
        ++ ((rs.foldl comply h).arrival? r).toList := by
  induction rs generalizing h with
  | nil => simp [standingFrom]
  | cons first rs ih =>
      rw [List.cons_append, standingFrom, ih, standingFrom, List.filter_append,
        List.filter_filter, List.append_assoc]
      congr 1
      apply List.filter_congr
      rintro ⟨slot, e⟩ _
      simp [Bool.and_comm]

/-- A request ends some of the notes that stand, and brings at most one. -/
theorem standing_concat (rs : List Request) (r : Request) :
    standing (rs ++ [r])
      = ((standing rs).filter fun (_, e) => !r.ends e) ++ ((after rs).arrival? r).toList :=
  standingFrom_concat empty rs r

end Requests

section Contents

/-- The notes of a table after one is put into a free slot, but for their order. -/
theorem perm_notes_put
    {h : HeldNotes} {slot : Nat}
    (hslot : h.freeSlot? = some slot)
    (e : Event) :
    (h.put slot e).notes.Perm (e :: h.notes) := by
  obtain ⟨hlt, hfree, _⟩ := List.findIdx?_eq_some_iff_getElem.1 hslot
  have hnone : h.slots[slot] = none := Option.isNone_iff_eq_none.1 hfree
  have hsplit : h.slots = h.slots.take slot ++ none :: h.slots.drop (slot + 1) := by
    rw [← hnone, ← List.drop_eq_getElem_cons hlt, List.take_append_drop]
  have hput :
      (h.put slot e).slots = h.slots.take slot ++ some e :: h.slots.drop (slot + 1) :=
    List.set_eq_take_append_cons_drop.trans (if_pos hlt)
  have hbefore :
      h.notes = (h.slots.take slot).reduceOption ++ (h.slots.drop (slot + 1)).reduceOption := by
    rw [notes, hsplit, List.reduceOption_append, List.reduceOption_cons_of_none, ← hsplit]
  rw [notes, hput, List.reduceOption_append, List.reduceOption_cons_of_some, hbefore]
  exact List.perm_middle

/-- Once a source is forgotten, the notes of the others are left, in the same order. -/
theorem notes_forget (h : HeldNotes) (source : UInt32) :
    (h.forget source).notes = h.notes.filter fun e => e.source != source := by
  simp only [notes, forget]
  induction h.slots with
  | nil => rfl
  | cons slot slots ih =>
      cases slot with
      | none => simpa using ih
      | some e =>
          rw [List.reduceOption_cons_of_some, List.filter_cons, List.map_cons, Option.filter]
          split
          case isTrue => rw [List.reduceOption_cons_of_some, ih]
          case isFalse => rw [List.reduceOption_cons_of_none, ih]

/-- A slot holds a note after another one is put into a free one: that one, or as before. -/
theorem getElem?_slots_put
    {h : HeldNotes} {slot : Nat}
    (hslot : h.freeSlot? = some slot)
    (e n : Event) (i : Nat) :
    (h.put slot e).slots[i]? = some (some n)
      ↔ h.slots[i]? = some (some n) ∨ (i, n) = (slot, e) := by
  obtain ⟨hlt, hfree, _⟩ := List.findIdx?_eq_some_iff_getElem.1 hslot
  have hnone : h.slots[slot] = none := Option.isNone_iff_eq_none.1 hfree
  by_cases hi : slot = i
  · subst hi
    simp [put, hlt, hnone, eq_comm]
  · have hne : i ≠ slot := fun heq => hi heq.symm
    simp [put, List.getElem?_set_ne hi, hne]

theorem getElem?_slots_forget
    (h : HeldNotes) (source : UInt32) (n : Event) (i : Nat) :
    (h.forget source).slots[i]? = some (some n)
      ↔ h.slots[i]? = some (some n) ∧ n.source ≠ source := by
  simp only [forget, List.getElem?_map, Option.map_eq_some_iff, Option.filter_eq_some_iff]
  constructor
  · rintro ⟨slot, hget, rfl, hne⟩
    exact ⟨hget, by simpa using hne⟩
  · rintro ⟨hget, hne⟩
    exact ⟨some n, hget, rfl, by simpa using hne⟩

end Contents

section Keeping

variable {h : HeldNotes} {entries : List (Nat × Event)}

/-- A table holds exactly some notes, each in its slot. -/
structure Stands (h : HeldNotes) (entries : List (Nat × Event)) : Prop where
  sized : h.slots.length = maxHeldNotes
  notes : h.notes.Perm (entries.map Prod.snd)
  slot : ∀ i n, h.slots[i]? = some (some n) ↔ (i, n) ∈ entries
  distinct : (entries.map Prod.fst).Nodup

theorem Stands.put
    (hs : h.Stands entries)
    {slot : Nat}
    (hslot : h.freeSlot? = some slot)
    (e : Event) :
    (h.put slot e).Stands (entries ++ [(slot, e)]) := by
  obtain ⟨hlt, hfree, _⟩ := List.findIdx?_eq_some_iff_getElem.1 hslot
  have hnone : h.slots[slot] = none := Option.isNone_iff_eq_none.1 hfree
  constructor
  · rw [slots_length_put, hs.sized]
  · rw [List.map_append]
    exact (perm_notes_put hslot e).trans
      ((hs.notes.cons e).trans (List.perm_append_singleton _ _).symm)
  · intro i n
    rw [getElem?_slots_put hslot, hs.slot, List.mem_append, List.mem_singleton]
  · have hnew : slot ∉ entries.map Prod.fst := by
      intro hmem
      obtain ⟨⟨_, n⟩, hentry, rfl⟩ := List.mem_map.1 hmem
      have hget := (hs.slot _ n).2 hentry
      simp [hlt, hnone] at hget
    rw [List.map_append]
    exact List.nodup_append_comm.1 (List.nodup_cons.2 ⟨hnew, hs.distinct⟩)

theorem Stands.forget
    (hs : h.Stands entries)
    (source : UInt32) :
    (h.forget source).Stands (entries.filter fun (_, e) => e.source != source) := by
  constructor
  · rw [slots_length_forget, hs.sized]
  · rw [notes_forget]
    refine (hs.notes.filter _).trans (List.Perm.of_eq ?_)
    rw [List.filter_map]
    rfl
  · intro i n
    rw [getElem?_slots_forget, hs.slot, List.mem_filter]
    simp
  · exact hs.distinct.sublist (List.filter_sublist.map _)

theorem stands_empty : empty.Stands [] where
  sized := rfl
  notes := .of_eq (by decide)
  slot := by
    intro i n
    simp [empty, List.getElem?_replicate]
  distinct := .nil

/-- Whatever is asked for, what stands is what the table holds. -/
theorem Stands.comply
    (hs : h.Stands entries)
    (r : Request) :
    (h.comply r).Stands
      ((entries.filter fun (_, e) => !r.ends e) ++ (h.arrival? r).toList) := by
  cases r with
  | insert e =>
      have hall : (entries.filter fun (_, n) => !(Request.insert e).ends n) = entries := by
        simp [Request.ends]
      rw [hall, HeldNotes.comply, insert, arrival?]
      cases hslot : h.freeSlot? with
      | some slot => exact hs.put hslot e
      | none => simpa using hs
  | forget source =>
      rw [arrival?, Option.toList_none, List.append_nil]
      exact hs.forget source
  | clear =>
      have hnone : (entries.filter fun (_, n) => !Request.clear.ends n) = [] :=
        List.filter_eq_nil_iff.2 fun _ _ => Bool.false_ne_true
      rw [hnone, arrival?]
      exact stands_empty

/-- After any requests, what stands is what the table holds. -/
theorem stands_after (requests : List Request) :
    (after requests).Stands (standing requests) := by
  induction requests using List.reverseRecOn with
  | nil => exact stands_empty
  | append_singleton rs r ih =>
      rw [after_concat, standing_concat]
      exact ih.comply r

end Keeping

section Answers

variable {h : HeldNotes} {entries : List (Nat × Event)}

/-- A slot in which a note stands is not free. -/
theorem Stands.mem_taken_iff
    (hs : h.Stands entries)
    {i : Nat}
    (hi : i < h.slots.length) :
    i ∈ entries.map Prod.fst ↔ ¬ h.slots[i].isNone = true := by
  have hget : h.slots[i]? = some h.slots[i] := List.getElem?_eq_getElem hi
  constructor
  · intro hmem hfree
    obtain ⟨⟨_, n⟩, hentry, rfl⟩ := List.mem_map.1 hmem
    rw [(hs.slot _ n).2 hentry, Option.isNone_iff_eq_none.1 hfree] at hget
    cases hget
  · intro htaken
    cases hslot : h.slots[i] with
    | none =>
        rw [hslot] at htaken
        exact absurd rfl htaken
    | some n =>
        rw [hslot] at hget
        exact List.mem_map_of_mem ((hs.slot i n).1 hget)

/-- The slot given out next is the lowest one in which no note stands. -/
theorem Stands.freeSlot?_eq_some_iff
    (hs : h.Stands entries)
    (i : Nat) :
    h.freeSlot? = some i
      ↔ i < maxHeldNotes
        ∧ i ∉ entries.map Prod.fst
        ∧ ∀ j < i, j ∈ entries.map Prod.fst := by
  rw [freeSlot?, List.findIdx?_eq_some_iff_getElem, ← hs.sized]
  constructor
  · rintro ⟨hlt, hfree, hlower⟩
    refine ⟨hlt, fun hmem => (hs.mem_taken_iff hlt).1 hmem hfree, fun j hj => ?_⟩
    exact (hs.mem_taken_iff (Nat.lt_trans hj hlt)).2 (hlower j hj)
  · rintro ⟨hlt, hfree, hlower⟩
    refine ⟨hlt, ?_, fun j hj => (hs.mem_taken_iff (Nat.lt_trans hj hlt)).1 (hlower j hj)⟩
    by_contra htaken
    exact hfree ((hs.mem_taken_iff hlt).2 htaken)

theorem Stands.length_eq
    (hs : h.Stands entries) :
    h.length = entries.length := by
  rw [length, hs.notes.length_eq, List.length_map]

theorem isEmpty_iff_notes (h : HeldNotes) :
    h.isEmpty = true ↔ h.notes = [] := by
  rw [isEmpty, List.all_eq_true, notes, List.reduceOption, List.filterMap_eq_nil_iff]
  simp

/-- What a table shows after requests is what stands. -/
structure HoldsStanding (requests : List Request) : Prop where
  /-- The notes in the table are those that stand, each as often as it stands. -/
  notes : (after requests).notes.Perm ((standing requests).map Prod.snd)
  /-- Each of them is still in the slot that it got. -/
  slot : ∀ i n, (after requests).slots[i]? = some (some n) ↔ (i, n) ∈ standing requests
  /-- No two of them stand in one slot. -/
  distinct : ((standing requests).map Prod.fst).Nodup
  /-- The next note gets the lowest slot in which none stands. -/
  lowest : ∀ i, (after requests).freeSlot? = some i
    ↔ i < 32
      ∧ i ∉ (standing requests).map Prod.fst
      ∧ ∀ j < i, j ∈ (standing requests).map Prod.fst
  /-- It is refused exactly if 32 notes stand. -/
  refused : (after requests).freeSlot? = none ↔ (standing requests).length = 32
  /-- A refused note changes nothing. -/
  unchanged : ∀ e, (after requests).freeSlot? = none →
    (after requests).insert e = after requests
  length : (after requests).length = (standing requests).length
  isEmpty : (after requests).isEmpty = true ↔ standing requests = []

/--
However notes are put in, sources forgotten and the table cleared: the table holds
exactly the notes that stand, each in the slot that it got.  A note gets the lowest
slot in which none stands; it is refused, and nothing changes, exactly if 32 stand.
-/
theorem holds_standing (requests : List Request) :
    HoldsStanding requests := by
  have hs := stands_after requests
  have hlength := hs.length_eq
  constructor
  · exact hs.notes
  · exact hs.slot
  · exact hs.distinct
  · exact hs.freeSlot?_eq_some_iff
  · rw [freeSlot?_eq_none_iff, hs.sized, hlength]
    rfl
  · intro e hnone
    rw [insert, hnone]
  · exact hlength
  · rw [isEmpty_iff_notes, ← List.length_eq_zero_iff, ← List.length_eq_zero_iff, ← hlength]
    rfl

end Answers

end HeldNotes
end Polyphony
