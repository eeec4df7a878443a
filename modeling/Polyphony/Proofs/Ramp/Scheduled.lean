import Mathlib.Data.List.Induction
import Mathlib.Data.List.Sort
import Polyphony.Proofs.Ramp.Frames

/-!
# What is pending after changes have been scheduled

Rendering goes through the pending changes once, from the front, and so relies on
their order and their number whatever was scheduled, and in whatever order.

**Lasting changes.**  Of the changes for one sample only the last one lasts.  Where
changes come in order of their samples and there is room for all those samples, one
change is pending for each sample, and it is the one that lasts.

**Results.**
* `length_insertAll_le`: the pending changes never need more room than there is.
* `insertChange_of_le`: a change that is not earlier than any pending one takes the
  place of the one for its sample, or comes behind them all.
* `Lasts.insertChange`: so the changes that last stay those that are pending.
* `pending_after_scheduling`: what is pending after any changes, and after changes in order.
-/

namespace Polyphony
namespace Ramp

section Bounds

variable {pending changes : List Change} {c : Change}

theorem length_insertChange_le_maxPending
    (h : pending.length ≤ maxPending)
    (c : Change) :
    (insertChange pending c).length ≤ maxPending := by
  rcases insertChange_cases pending c with
    ⟨_, hi⟩ | ⟨init, last, rfl, ⟨_, hi⟩ | ⟨_, hroom, hi⟩ | ⟨_, _, hi⟩⟩
  · simp [hi, maxPending]
  · simpa [hi] using h
  · rw [hi, List.length_append, List.length_singleton]
    exact hroom
  · simpa [hi] using h

/-- However many changes are scheduled, no more are pending than there is room for. -/
theorem length_insertAll_le
    (h : pending.length ≤ maxPending)
    (changes : List Change) :
    (insertAll pending changes).length ≤ maxPending := by
  induction changes generalizing pending with
  | nil => exact h
  | cons c changes ih => exact ih (length_insertChange_le_maxPending h c)

theorem insertAll_concat (pending changes : List Change) (c : Change) :
    insertAll pending (changes ++ [c]) = insertChange (insertAll pending changes) c := by
  simp [insertAll]

/-- The last of the values scheduled is the last one pending. -/
theorem getLast?_insertAll (changes : List Change) :
    (insertAll [] changes).getLast?.map Change.value = changes.getLast?.map Change.value := by
  induction changes using List.reverseRecOn with
  | nil => rfl
  | append_singleton changes c _ =>
      rw [insertAll_concat, getLast?_insertChange, List.getLast?_concat]
      rfl

end Bounds

section Lasting

variable {pending changes : List Change} {c d : Change}

/-- Changes in the order of their samples, perhaps several for one sample. -/
def InTurn (changes : List Change) : Prop :=
  changes.Pairwise fun c d => c.offset ≤ d.offset

/-- The change that is scheduled last for a sample. -/
def lastFor? (changes : List Change) (offset : Nat) : Option Change :=
  (changes.filter fun c => c.offset == offset).getLast?

theorem lastFor?_concat_self (changes : List Change) (c : Change) :
    lastFor? (changes ++ [c]) c.offset = some c := by
  simp [lastFor?]

theorem lastFor?_concat_of_ne
    {offset : Nat}
    (changes : List Change)
    (hne : c.offset ≠ offset) :
    lastFor? (changes ++ [c]) offset = lastFor? changes offset := by
  simp [lastFor?, hne]

/-- For each sample that changes are for, the last one of them is pending, and no other. -/
structure Lasts (pending changes : List Change) : Prop where
  ordered : Ordered pending
  offsets : ∀ offset, offset ∈ pending.map Change.offset ↔ offset ∈ changes.map Change.offset
  last : ∀ c ∈ pending, lastFor? changes c.offset = some c

/-- In order, one change is pending for each of the samples. -/
theorem Ordered.nodup_offsets
    (h : Ordered pending) :
    (pending.map Change.offset).Nodup :=
  List.pairwise_map.2 (h.imp Nat.ne_of_lt)

/--
A change that is not earlier than any pending one takes the place of the one for its
sample, or comes behind them all.
-/
theorem insertChange_of_le
    (hord : Ordered pending)
    (hle : ∀ d ∈ pending, d.offset ≤ c.offset)
    (hplace : HasPlace pending c) :
    insertChange pending c = (pending.filter fun d => d.offset != c.offset) ++ [c] := by
  rcases insertChange_cases pending c with
    ⟨rfl, hi⟩ | ⟨init, last, rfl, ⟨hlast, hi⟩ | ⟨hlt, _, hi⟩ | ⟨hlt, hfull, _⟩⟩
  · exact hi
  · have heq : last.offset = c.offset := Nat.le_antisymm (hle last (by simp)) hlast
    have hinit : (init.filter fun d => d.offset != c.offset) = init := by
      refine List.filter_eq_self.2 fun d hd => ?_
      have hd' := hord.lt_last d hd
      simp only [bne_iff_ne]
      omega
    rw [hi, List.filter_append, hinit]
    simp [heq]
  · have hall : ((init ++ [last]).filter fun d => d.offset != c.offset) = init ++ [last] := by
      refine List.filter_eq_self.2 fun d hd => ?_
      have hd' : d.offset ≤ last.offset := by
        rcases List.mem_append.1 hd with hd | hd
        · exact Nat.le_of_lt (hord.lt_last d hd)
        · rw [List.mem_singleton.1 hd]
      simp only [bne_iff_ne]
      omega
    rw [hi, hall]
  · rcases hplace with hroom | ⟨last', hlast', hle'⟩
    · omega
    · rw [List.getLast?_concat, Option.mem_some_iff] at hlast'
      subst hlast'
      omega

/-- What lasts is still pending after one more change, if that is in turn and has a place. -/
theorem Lasts.insertChange
    (h : Lasts pending changes)
    (hturn : InTurn (changes ++ [c]))
    (hplace : HasPlace pending c) :
    Lasts (Ramp.insertChange pending c) (changes ++ [c]) := by
  have hearlier : ∀ d ∈ changes, d.offset ≤ c.offset := fun d hd =>
    (List.pairwise_append.1 hturn).2.2 d hd c List.mem_cons_self
  have hle : ∀ d ∈ pending, d.offset ≤ c.offset := by
    intro d hd
    obtain ⟨d', hd', heq⟩ := List.mem_map.1 ((h.offsets _).1 (List.mem_map_of_mem hd))
    exact heq ▸ hearlier d' hd'
  refine ⟨h.ordered.insertChange c, ?_, ?_⟩
  · intro offset
    have hoffsets :
        (Ramp.insertChange pending c).map Change.offset
          = ((pending.map Change.offset).filter fun o => o != c.offset) ++ [c.offset] := by
      rw [insertChange_of_le h.ordered hle hplace, List.map_append, List.filter_map]
      rfl
    rw [hoffsets, List.mem_append, List.mem_filter, h.offsets, List.map_append, List.mem_append]
    by_cases heq : offset = c.offset
    · simp [heq]
    · simp [heq]
  · intro d hd
    rw [insertChange_of_le h.ordered hle hplace] at hd
    rcases List.mem_append.1 hd with hd | hd
    · obtain ⟨hmem, hne⟩ := List.mem_filter.1 hd
      have hne' : c.offset ≠ d.offset := fun heq => by simp [heq] at hne
      rw [lastFor?_concat_of_ne _ hne']
      exact h.last d hmem
    · rw [List.mem_singleton.1 hd]
      exact lastFor?_concat_self _ _

/-- In order of their samples, as many changes are pending as there are samples to last for. -/
theorem Lasts.offsets_eq
    (h : Lasts pending changes)
    (hturn : InTurn changes) :
    pending.map Change.offset = (changes.map Change.offset).dedup := by
  have hsame : (pending.map Change.offset).Perm (changes.map Change.offset).dedup := by
    refine (List.perm_ext_iff_of_nodup h.ordered.nodup_offsets (List.nodup_dedup _)).2 ?_
    intro offset
    rw [h.offsets, List.mem_dedup]
  have hpending : (pending.map Change.offset).Pairwise (· ≤ ·) :=
    List.pairwise_map.2 (h.ordered.imp Nat.le_of_lt)
  have hchanges : (changes.map Change.offset).dedup.Pairwise (· ≤ ·) :=
    (List.pairwise_map.2 hturn).sublist (List.dedup_sublist _)
  exact hsame.eq_of_pairwise (fun _ _ _ _ => Nat.le_antisymm) hpending hchanges

/-- A change has a place as long as there is room for every sample that changes are for. -/
theorem Lasts.hasPlace
    (h : Lasts pending changes)
    (hroom : ((changes ++ [c]).map Change.offset).dedup.length ≤ maxPending) :
    HasPlace pending c := by
  cases hlast : pending.getLast? with
  | none =>
      rw [List.getLast?_eq_none_iff.1 hlast]
      exact .inl (by simp [maxPending])
  | some last =>
      by_cases hle : c.offset ≤ last.offset
      · exact .inr ⟨last, hlast, hle⟩
      · -- the new sample is one more than those that changes are pending for
        obtain ⟨init, rfl⟩ := List.getLast?_eq_some_iff.1 hlast
        have hnew : Ordered (init ++ [last] ++ [c]) := by
          refine h.ordered.concat fun d hd => ?_
          rcases List.mem_append.1 hd with hd | hd
          · exact Nat.lt_trans (h.ordered.lt_last d hd) (Nat.lt_of_not_le hle)
          · rw [List.mem_singleton.1 hd]
            exact Nat.lt_of_not_le hle
        have hsub :
            (init ++ [last] ++ [c]).map Change.offset
              ⊆ ((changes ++ [c]).map Change.offset).dedup := by
          intro offset hoffset
          rw [List.mem_dedup, List.map_append, List.mem_append, ← h.offsets, ← List.mem_append,
            ← List.map_append]
          exact hoffset
        have hlength := (hnew.nodup_offsets.subperm hsub).length_le
        rw [List.length_map, List.length_append, List.length_singleton] at hlength
        exact .inl (by omega)

/-- Changes in turn last if there is room for every sample that they are for. -/
theorem lasts_insertAll
    (hturn : InTurn changes)
    (hroom : (changes.map Change.offset).dedup.length ≤ maxPending) :
    Lasts (insertAll [] changes) changes := by
  induction changes using List.reverseRecOn with
  | nil => exact ⟨.nil, fun _ => Iff.rfl, nofun⟩
  | append_singleton changes c ih =>
      have hfewer :
          (changes.map Change.offset).dedup.length
            ≤ ((changes ++ [c]).map Change.offset).dedup.length := by
        refine ((List.nodup_dedup _).subperm fun offset hoffset => ?_).length_le
        rw [List.mem_dedup] at hoffset ⊢
        rw [List.map_append]
        exact List.mem_append_left _ hoffset
      have hlasts := ih (List.pairwise_append.1 hturn).1 (hfewer.trans hroom)
      rw [insertAll_concat]
      exact hlasts.insertChange hturn (hlasts.hasPlace hroom)

end Lasting

section Scheduling

variable {r : Ramp}

theorem foldl_schedule (r : Ramp) (changes : List Change) :
    changes.foldl (fun r c => r.schedule c.value c.offset) r = r.scheduleAll changes := by
  induction changes generalizing r with
  | nil => rfl
  | cons c changes ih => exact ih (r.schedule c.value c.offset)

/--
Whatever is scheduled on a ramp with nothing pending: at most 64 changes are pending,
one after the other, and the last value is the one scheduled last.  If the changes
come in the order of their samples, and there are at most 64 of those, then exactly
one is pending for each sample, the one that was scheduled last for it.
-/
theorem pending_after_scheduling
    (hnil : r.pending = [])
    (changes : List Change) :
    let pending := (changes.foldl (fun r c => r.schedule c.value c.offset) r).pending
    (pending.length ≤ 64
      ∧ pending.Pairwise (fun c d => c.offset < d.offset)
      ∧ pending.getLast?.map Change.value = changes.getLast?.map Change.value)
    ∧ (changes.Pairwise (fun c d => c.offset ≤ d.offset) →
      (changes.map Change.offset).dedup.length ≤ 64 →
      pending.map Change.offset = (changes.map Change.offset).dedup
        ∧ ∀ c ∈ pending, (changes.filter fun d => d.offset == c.offset).getLast? = some c) := by
  intro pending
  have hpending : pending = insertAll [] changes :=
    hnil ▸ congrArg Ramp.pending (foldl_schedule r changes)
  rw [hpending]
  refine ⟨⟨length_insertAll_le (Nat.zero_le _) changes, ?_, getLast?_insertAll changes⟩, ?_⟩
  · exact Ordered.insertAll .nil changes
  · intro hturn hroom
    have hlasts := lasts_insertAll hturn hroom
    exact ⟨hlasts.offsets_eq hturn, hlasts.last⟩

/-- Four changes for two samples. -/
def fourChanges : List Change :=
  [⟨0.25, 3⟩, ⟨0.5, 3⟩, ⟨0.75, 7⟩, ⟨1.0, 7⟩]

/-- The second and the last of them are pending. -/
theorem pending_fourChanges :
    let r : Ramp := { sampleRate := 48000.0 }
    let pending := (fourChanges.foldl (fun r c => r.schedule c.value c.offset) r).pending
    r.pending = []
      ∧ fourChanges.Pairwise (fun c d => c.offset ≤ d.offset)
      ∧ (fourChanges.map Change.offset).dedup.length ≤ 64
      ∧ (pending.map Change.offset = (fourChanges.map Change.offset).dedup
        ∧ ∀ c ∈ pending, (fourChanges.filter fun d => d.offset == c.offset).getLast? = some c)
      ∧ pending = [⟨0.5, 3⟩, ⟨1.0, 7⟩] := by
  intro r pending
  have hturn : fourChanges.Pairwise (fun c d => c.offset ≤ d.offset) := by decide
  have hroom : (fourChanges.map Change.offset).dedup.length ≤ 64 := by decide
  have hlasts := (pending_after_scheduling (r := r) rfl fourChanges).2 hturn hroom
  exact ⟨rfl, hturn, hroom, hlasts, by decide +kernel⟩

end Scheduling

end Ramp
end Polyphony
