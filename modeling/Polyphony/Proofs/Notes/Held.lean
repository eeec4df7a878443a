import Mathlib.Tactic.ByContra
import Polyphony.Notes.Held

/-!
# What the table of held notes holds

**Results.**
* `mem_notes_put_iff`, `mem_notes_forget`: the notes after one is put in, and after a
  source has been forgotten.
* `freeSlot?_eq_none_iff`: a table has no free slot exactly if it holds as many notes
  as it has slots.
-/

namespace Polyphony
namespace HeldNotes

section Notes

theorem mem_notes_iff {h : HeldNotes} {n : Event} :
    n ∈ h.notes ↔ some n ∈ h.slots := by
  unfold notes
  constructor
  · intro hn
    obtain ⟨slot, hslot, heq⟩ := List.mem_filterMap.1 hn
    have hsome : slot = some n := heq
    rwa [hsome] at hslot
  · intro hslot
    exact List.mem_filterMap.2 ⟨some n, hslot, rfl⟩

theorem not_mem_notes_empty (n : Event) : n ∉ HeldNotes.empty.notes := by
  have hnone : HeldNotes.empty.notes = [] := by
    decide
  rw [hnone]
  exact List.not_mem_nil

theorem length_eq_countP (h : HeldNotes) :
    h.length = h.slots.countP Option.isSome := by
  exact List.length_filterMap_eq_countP

/-- A note that is put in comes beside those that were there. -/
theorem mem_notes_put
    {h : HeldNotes} {slot : Nat} {e n : Event}
    (hn : n ∈ (h.put slot e).notes) :
    n = e ∨ n ∈ h.notes := by
  rcases List.mem_or_eq_of_mem_set (mem_notes_iff.1 hn) with hold | hnew
  · exact Or.inr (mem_notes_iff.2 hold)
  · exact Or.inl (Option.some.inj hnew)

/-- The slot in which a note is put was free, so that the notes that were there stay. -/
theorem mem_notes_put_iff
    {h : HeldNotes} {slot : Nat}
    (hslot : h.freeSlot? = some slot)
    {e n : Event} :
    n ∈ (h.put slot e).notes ↔ n = e ∨ n ∈ h.notes := by
  constructor
  · exact mem_notes_put
  obtain ⟨hlt, hfree, _⟩ := List.findIdx?_eq_some_iff_getElem.1 hslot
  rintro (rfl | hold)
  · exact mem_notes_iff.2 (List.mem_set hlt _)
  · obtain ⟨i, hi, hget⟩ := List.getElem_of_mem (mem_notes_iff.1 hold)
    have hne : slot ≠ i := by
      rintro rfl
      rw [hget] at hfree
      cases hfree
    refine mem_notes_iff.2 (List.mem_iff_getElem?.2 ⟨i, ?_⟩)
    unfold put
    rw [List.getElem?_set_ne hne, List.getElem?_eq_getElem hi, hget]

theorem length_put_le (h : HeldNotes) (slot : Nat) (e : Event) :
    (h.put slot e).length ≤ h.length + 1 := by
  rw [length_eq_countP, length_eq_countP]
  unfold put
  by_cases hlt : slot < h.slots.length
  · rw [List.countP_set hlt]
    simp only [Option.isSome_some, if_true]
    omega
  · rw [List.set_eq_of_length_le (by omega)]
    exact Nat.le_succ _

/-- A note is still there if it is of another source. -/
theorem mem_notes_forget
    {h : HeldNotes} {source : UInt32} {n : Event} :
    n ∈ (h.forget source).notes ↔ n ∈ h.notes ∧ n.source ≠ source := by
  rw [mem_notes_iff, mem_notes_iff]
  unfold forget
  constructor
  · intro hslot
    obtain ⟨slot, hmem, hfilter⟩ := List.mem_map.1 hslot
    obtain ⟨hsome, hkeep⟩ := Option.filter_eq_some_iff.1 hfilter
    rw [hsome] at hmem
    exact ⟨hmem, by simpa using hkeep⟩
  · rintro ⟨hmem, hne⟩
    refine List.mem_map.2 ⟨some n, hmem, ?_⟩
    simp [Option.filter, hne]

theorem length_forget_le (h : HeldNotes) (source : UInt32) :
    (h.forget source).length ≤ h.length := by
  rw [length_eq_countP, length_eq_countP]
  unfold forget
  rw [List.countP_map]
  apply List.countP_mono_left
  intro slot _ hkeep
  exact Option.isSome_of_isSome_filter _ _ hkeep

/-- A table whose notes are all of one source is empty without it. -/
theorem length_forget_eq_zero
    {h : HeldNotes} {source : UInt32}
    (hall : ∀ n ∈ h.notes, n.source = source) :
    (h.forget source).length = 0 := by
  unfold length
  rw [List.length_eq_zero_iff, List.eq_nil_iff_forall_not_mem]
  intro n hn
  obtain ⟨hmem, hne⟩ := mem_notes_forget.1 hn
  exact hne (hall n hmem)

/-- Without a note in the table, a new one is the only one. -/
theorem put_of_length_eq_zero
    {h : HeldNotes}
    (hzero : h.length = 0)
    (slot : Nat) (e : Event) :
    (h.put slot e).length ≤ 1 ∧ ∀ n ∈ (h.put slot e).notes, n.source = e.source := by
  constructor
  · have hle := h.length_put_le slot e
    omega
  · intro n hn
    rcases mem_notes_put hn with rfl | hold
    · rfl
    · have hpos := List.length_pos_of_mem hold
      unfold length at hzero
      omega

/-- Forgetting one source and putting in a note of another one come in any order. -/
theorem forget_put
    (h : HeldNotes) (slot : Nat) {e : Event} {source : UInt32}
    (hne : e.source ≠ source) :
    (h.put slot e).forget source = (h.forget source).put slot e := by
  have hkeep : (some e).filter (fun n => n.source != source) = some e := by
    simp [Option.filter, hne]
  unfold put forget
  rw [List.map_set, hkeep]

/-- A table has no free slot exactly if it holds as many notes as it has slots. -/
theorem freeSlot?_eq_none_iff (h : HeldNotes) :
    h.freeSlot? = none ↔ h.length = h.slots.length := by
  constructor
  · intro hnone
    have hfull : h.slots.countP Option.isSome = h.slots.length := by
      refine List.countP_eq_length.2 ?_
      intro slot hslot
      have htaken := List.findIdx?_eq_none_iff.1 hnone slot hslot
      cases slot with
      | none => cases htaken
      | some n => rfl
    rw [length_eq_countP, hfull]
  · intro hfull
    rw [length_eq_countP, List.countP_eq_length] at hfull
    refine List.findIdx?_eq_none_iff.2 ?_
    intro slot hslot
    rw [Option.isNone_eq_false_iff]
    exact hfull slot hslot

/-- A table with fewer notes than slots has a free one. -/
theorem isSome_freeSlot?
    {h : HeldNotes}
    (hlt : h.length < h.slots.length) :
    h.freeSlot?.isSome = true := by
  cases hslot : h.freeSlot? with
  | some slot => rfl
  | none => exact absurd (h.freeSlot?_eq_none_iff.1 hslot) (Nat.ne_of_lt hlt)

end Notes

end HeldNotes
end Polyphony
