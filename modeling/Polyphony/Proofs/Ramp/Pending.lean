import Polyphony.Ramp

/-!
# Pending changes

A ramp keeps its pending changes in the order of their samples.  This module
says what scheduling does to them, and what is left of them once a sample of the
block has passed.

**Places.**  A change has a place when the list is not full, or when it is not
later than the last pending one and so only replaces its value.  Where every
change has a place, nothing but a value is ever lost.

**Passing.**  When a sample passes, the changes due at it leave the list and all
others come one sample nearer.

**Results.**
* `getLast?_insertChange`: the last value scheduled is the last one pending.
* `Ordered.insertChange`: scheduling keeps the order.
* `passed_insertAll`, `due_insertAll`: changes that have places may be scheduled
  before or after the sample in front of them has passed.
-/

namespace Polyphony

namespace Change

/-- The change as it looks some samples later. -/
def earlier (k : Nat) (c : Change) : Change :=
  { c with offset := c.offset - k }

/-- Whether the change is due at the next sample. -/
def isNow (c : Change) : Bool :=
  c.offset == 0

@[simp] theorem offset_earlier (k : Nat) (c : Change) :
    (c.earlier k).offset = c.offset - k := by
  rfl

end Change

namespace Ramp

section Inserting

/-- The changes come one after the other. -/
def Ordered (pending : List Change) : Prop :=
  pending.Pairwise fun c d => c.offset < d.offset

/-- Whether a change has a place among the pending ones. -/
def HasPlace (pending : List Change) (c : Change) : Prop :=
  pending.length < maxPending ∨ ∃ last ∈ pending.getLast?, c.offset ≤ last.offset

/-- The pending changes after several more have been scheduled. -/
def insertAll (pending changes : List Change) : List Change :=
  changes.foldl insertChange pending

/-- Whether each of several changes has a place when its turn comes. -/
def HavePlaces : List Change → List Change → Prop
  | _, [] => True
  | pending, c :: changes =>
      HasPlace pending c ∧ HavePlaces (insertChange pending c) changes

instance (pending : List Change) (c : Change) : Decidable (HasPlace pending c) :=
  inferInstanceAs (Decidable (_ ∨ _))

instance decidableHavePlaces :
    (pending changes : List Change) → Decidable (HavePlaces pending changes)
  | _, [] => isTrue trivial
  | pending, c :: changes =>
      have := decidableHavePlaces (insertChange pending c) changes
      inferInstanceAs (Decidable (_ ∧ _))

/-- The ways to schedule a change: alone, in the place of the last one, or behind it. -/
theorem insertChange_cases (pending : List Change) (c : Change) :
    (pending = [] ∧ insertChange pending c = [c])
      ∨
    ∃ init last,
      pending = init ++ [last] ∧
      ((c.offset ≤ last.offset ∧
          insertChange pending c = init ++ [{ last with value := c.value }])
        ∨
      (last.offset < c.offset ∧
          pending.length < maxPending ∧
          insertChange pending c = pending ++ [c])
        ∨
      (last.offset < c.offset ∧
          maxPending ≤ pending.length ∧
          insertChange pending c = init ++ [c])) := by
  cases hlast : pending.getLast? with
  | none =>
      have hnil := List.getLast?_eq_none_iff.1 hlast
      subst hnil
      exact Or.inl ⟨rfl, rfl⟩
  | some last =>
      obtain ⟨init, rfl⟩ := List.getLast?_eq_some_iff.1 hlast
      refine Or.inr ⟨init, last, rfl, ?_⟩
      by_cases hle : c.offset ≤ last.offset
      · exact Or.inl ⟨hle, by simp [insertChange, hle]⟩
      · by_cases hroom : init.length + 1 < maxPending
        · refine Or.inr (Or.inl ⟨by omega, by simpa using hroom, ?_⟩)
          simp [insertChange, hle, hroom]
        · have hfull : maxPending ≤ (init ++ [last]).length := by
            simpa using hroom
          refine Or.inr (Or.inr ⟨by omega, hfull, ?_⟩)
          simp [insertChange, hle, hroom]

/-- Whatever was pending, the last pending value is the one scheduled last. -/
theorem getLast?_insertChange (pending : List Change) (c : Change) :
    (insertChange pending c).getLast?.map Change.value = some c.value := by
  rcases insertChange_cases pending c with
    ⟨_, h⟩ | ⟨init, last, _, ⟨_, h⟩ | ⟨_, _, h⟩ | ⟨_, _, h⟩⟩
  all_goals simp [h]

/-- Every pending offset was pending before or is the one scheduled. -/
theorem offset_of_mem_insertChange
    {pending : List Change} {c d : Change}
    (h : d ∈ insertChange pending c) :
    d.offset = c.offset ∨ ∃ b ∈ pending, d.offset = b.offset := by
  rcases insertChange_cases pending c with
    ⟨_, hi⟩ | ⟨init, last, hp, ⟨_, hi⟩ | ⟨_, _, hi⟩ | ⟨_, _, hi⟩⟩
  all_goals
    rw [hi] at h
  · have hd : d = c := by
      simpa using h
    exact Or.inl (by rw [hd])
  · rcases List.mem_append.1 h with h | h
    · exact Or.inr ⟨d, by simp [hp, h], rfl⟩
    · have hd : d = { last with value := c.value } := by
        simpa using h
      exact Or.inr ⟨last, by simp [hp], by rw [hd]⟩
  · rcases List.mem_append.1 h with h | h
    · exact Or.inr ⟨d, h, rfl⟩
    · have hd : d = c := by
        simpa using h
      exact Or.inl (by rw [hd])
  · rcases List.mem_append.1 h with h | h
    · exact Or.inr ⟨d, by simp [hp, h], rfl⟩
    · have hd : d = c := by
        simpa using h
      exact Or.inl (by rw [hd])

/-- The same for several changes. -/
theorem offset_of_mem_insertAll
    {pending changes : List Change} {d : Change}
    (h : d ∈ insertAll pending changes) :
    (∃ c ∈ changes, d.offset = c.offset) ∨ ∃ b ∈ pending, d.offset = b.offset := by
  induction changes generalizing pending with
  | nil => exact Or.inr ⟨d, h, rfl⟩
  | cons c changes ih =>
      rcases ih h with ⟨c', hc', heq⟩ | ⟨b, hb, heq⟩
      · exact Or.inl ⟨c', List.mem_cons_of_mem _ hc', heq⟩
      · rcases offset_of_mem_insertChange hb with hc | ⟨b', hb', hb⟩
        · exact Or.inl ⟨c, List.mem_cons_self, heq.trans hc⟩
        · exact Or.inr ⟨b', hb', heq.trans hb⟩

/-- A list in order, with a change behind that is later than all of it. -/
theorem Ordered.concat
    {init : List Change} {c : Change}
    (h : Ordered init)
    (hlt : ∀ a ∈ init, a.offset < c.offset) :
    Ordered (init ++ [c]) := by
  refine List.pairwise_append.2 ⟨h, by simp, ?_⟩
  intro a ha b hb
  have hb' : b = c := by
    simpa using hb
  rw [hb']
  exact hlt a ha

/-- In order, all changes are earlier than the last. -/
theorem Ordered.lt_last
    {init : List Change} {last : Change}
    (h : Ordered (init ++ [last])) :
    ∀ a ∈ init, a.offset < last.offset := by
  intro a ha
  exact (List.pairwise_append.1 h).2.2 a ha last (by simp)

/-- Scheduling a change keeps the order. -/
theorem Ordered.insertChange
    {pending : List Change}
    (h : Ordered pending)
    (c : Change) :
    Ordered (Ramp.insertChange pending c) := by
  rcases insertChange_cases pending c with
    ⟨_, hi⟩ | ⟨init, last, rfl, ⟨_, hi⟩ | ⟨hlt, _, hi⟩ | ⟨hlt, _, hi⟩⟩
  all_goals
    rw [hi]
  · exact List.pairwise_singleton _ _
  · have hinit : Ordered init := (List.pairwise_append.1 h).1
    exact hinit.concat h.lt_last
  · refine h.concat ?_
    intro a ha
    rcases List.mem_append.1 ha with ha | ha
    · exact Nat.lt_trans (h.lt_last a ha) hlt
    · have ha' : a = last := by
        simpa using ha
      rw [ha']
      exact hlt
  · have hinit : Ordered init := (List.pairwise_append.1 h).1
    exact hinit.concat fun a ha => Nat.lt_trans (h.lt_last a ha) hlt

/-- Scheduling several changes keeps the order. -/
theorem Ordered.insertAll
    {pending : List Change}
    (h : Ordered pending)
    (changes : List Change) :
    Ordered (Ramp.insertAll pending changes) := by
  induction changes generalizing pending with
  | nil => exact h
  | cons c changes ih => exact ih (h.insertChange c)

end Inserting

section Passing

/-- A last change that does not count makes no difference to those in front. -/
theorem takeWhile_concat
    {p : Change → Bool}
    (init : List Change) {last : Change}
    (h : p last = false) :
    (init ++ [last]).takeWhile p = init.takeWhile p := by
  rw [List.takeWhile_append]
  split
  case isTrue hall =>
    have hself : init.takeWhile p = init :=
      (List.takeWhile_prefix _).eq_of_length hall
    rw [List.takeWhile_cons_of_neg (by simp [h]), List.append_nil, hself]
  case isFalse => rfl

/-- The changes due at the next sample. -/
def due (pending : List Change) : List Change :=
  pending.takeWhile Change.isNow

/-- The changes that are left after the next sample, as they look then. -/
def passed (pending : List Change) : List Change :=
  (pending.dropWhile Change.isNow).map (Change.earlier 1)

theorem length_passed_le (pending : List Change) :
    (passed pending).length ≤ pending.length := by
  unfold passed
  rw [List.length_map]
  exact (List.dropWhile_suffix _).length_le

/-- A last change that is not due now stays behind what is left. -/
theorem passed_concat
    (init : List Change) {last : Change}
    (h : last.offset ≠ 0) :
    passed (init ++ [last]) = passed init ++ [last.earlier 1] := by
  have hnow : last.isNow = false := by
    simpa [Change.isNow] using h
  unfold passed
  rw [List.dropWhile_append]
  split
  case isTrue hempty =>
    have hnil : init.dropWhile Change.isNow = [] := by
      simpa using hempty
    simp [hnil, hnow]
  case isFalse => simp

/-- A last change that is not due now makes no difference to those that are. -/
theorem due_concat
    (init : List Change) {last : Change}
    (h : last.offset ≠ 0) :
    due (init ++ [last]) = due init := by
  have hnow : last.isNow = false := by
    simpa [Change.isNow] using h
  exact takeWhile_concat init hnow

/-- In order, nothing stands before a change that is due now. -/
theorem Ordered.eq_nil_of_now
    {init : List Change} {last : Change}
    (h : Ordered (init ++ [last]))
    (hnow : last.offset = 0) :
    init = [] := by
  cases init with
  | nil => rfl
  | cons c init =>
      have hlt := h.lt_last c (by simp)
      omega

/-- A change to come may be scheduled before or after the next sample has passed. -/
theorem passed_insertChange
    {pending : List Change} {c : Change}
    (hord : Ordered pending)
    (hplace : HasPlace pending c)
    (hc : 1 ≤ c.offset) :
    passed (insertChange pending c) = insertChange (passed pending) (c.earlier 1) := by
  have hlater : c.offset ≠ 0 := by
    omega
  rcases insertChange_cases pending c with
    ⟨hp, hi⟩ | ⟨init, last, hp, ⟨hle, hi⟩ | ⟨hlt, hroom, hi⟩ | ⟨hlt, hfull, hi⟩⟩
  · rw [hi, hp]
    exact passed_concat [] hlater
  · -- the last change is at least as late, so it is not due either
    have hlast : last.offset ≠ 0 := by
      omega
    have hlast' : ({ last with value := c.value } : Change).offset ≠ 0 := hlast
    have hle' : c.offset - 1 ≤ last.offset - 1 := by
      omega
    rw [hi, hp, passed_concat init hlast, passed_concat init hlast']
    simp [insertChange, hle', Change.earlier]
  · rw [hi, hp, passed_concat (init ++ [last]) hlater]
    by_cases hlast : last.offset = 0
    · rw [hp] at hord
      have hinit := hord.eq_nil_of_now hlast
      have hnone : passed (init ++ [last]) = [] := by
        simp [hinit, passed, Change.isNow, hlast]
      rw [hnone]
      rfl
    · have hlt' : ¬ c.offset - 1 ≤ last.offset - 1 := by
        omega
      have hshort : (passed init).length + 1 < maxPending := by
        have hle := length_passed_le init
        have hlen : init.length + 1 < maxPending := by
          simpa [hp] using hroom
        omega
      rw [passed_concat init hlast]
      simp [insertChange, hlt', hshort]
  · -- a full list has a place for a change only if that is not later than the last one
    rcases hplace with hroom | ⟨last', hlast', hle⟩
    · omega
    · have heq : last' = last := by
        simpa [hp] using hlast'.symm
      rw [heq] at hle
      omega

/-- A change to come makes no difference to those that are due at the next sample. -/
theorem due_insertChange
    {pending : List Change} {c : Change}
    (hplace : HasPlace pending c)
    (hc : 1 ≤ c.offset) :
    due (insertChange pending c) = due pending := by
  have hlater : c.offset ≠ 0 := by
    omega
  rcases insertChange_cases pending c with
    ⟨hp, hi⟩ | ⟨init, last, hp, ⟨hle, hi⟩ | ⟨hlt, hroom, hi⟩ | ⟨hlt, hfull, hi⟩⟩
  · rw [hi, hp]
    exact due_concat [] hlater
  · have hlast : last.offset ≠ 0 := by
      omega
    have hlast' : ({ last with value := c.value } : Change).offset ≠ 0 := hlast
    rw [hi, hp, due_concat init hlast, due_concat init hlast']
  · rw [hi, due_concat pending hlater]
  · rcases hplace with hroom | ⟨last', hlast', hle⟩
    · omega
    · have heq : last' = last := by
        simpa [hp] using hlast'.symm
      rw [heq] at hle
      omega

/-- What has a place before the next sample has passed has one afterwards. -/
theorem HasPlace.passed
    {pending : List Change} {c : Change}
    (h : HasPlace pending c)
    (hc : 1 ≤ c.offset) :
    HasPlace (Ramp.passed pending) (c.earlier 1) := by
  rcases h with hroom | ⟨last, hlast, hle⟩
  · have hlen := length_passed_le pending
    exact Or.inl (by omega)
  · obtain ⟨init, rfl⟩ := List.getLast?_eq_some_iff.1 hlast
    have hlater : last.offset ≠ 0 := by
      omega
    refine Or.inr ⟨last.earlier 1, ?_, ?_⟩
    · rw [passed_concat init hlater]
      simp
    · simp only [Change.offset_earlier]
      omega

/-- The same for several changes to come. -/
theorem passed_insertAll
    {pending changes : List Change}
    (hord : Ordered pending)
    (hplaces : HavePlaces pending changes)
    (hchanges : ∀ c ∈ changes, 1 ≤ c.offset) :
    passed (insertAll pending changes)
      = insertAll (passed pending) (changes.map (Change.earlier 1)) := by
  induction changes generalizing pending with
  | nil => rfl
  | cons c changes ih =>
      have hc : 1 ≤ c.offset := hchanges c (by simp)
      have hrest : ∀ d ∈ changes, 1 ≤ d.offset := by
        intro d hd
        exact hchanges d (by simp [hd])
      have hstep := ih (hord.insertChange c) hplaces.2 hrest
      rw [passed_insertChange hord hplaces.1 hc] at hstep
      exact hstep

theorem due_insertAll
    {pending changes : List Change}
    (hplaces : HavePlaces pending changes)
    (hchanges : ∀ c ∈ changes, 1 ≤ c.offset) :
    due (insertAll pending changes) = due pending := by
  induction changes generalizing pending with
  | nil => rfl
  | cons c changes ih =>
      have hc : 1 ≤ c.offset := hchanges c (by simp)
      have hrest : ∀ d ∈ changes, 1 ≤ d.offset := by
        intro d hd
        exact hchanges d (by simp [hd])
      have hstep := ih hplaces.2 hrest
      rw [due_insertChange hplaces.1 hc] at hstep
      exact hstep

theorem HavePlaces.passed
    {pending changes : List Change}
    (hord : Ordered pending)
    (h : HavePlaces pending changes)
    (hchanges : ∀ c ∈ changes, 1 ≤ c.offset) :
    HavePlaces (Ramp.passed pending) (changes.map (Change.earlier 1)) := by
  induction changes generalizing pending with
  | nil => trivial
  | cons c changes ih =>
      have hc : 1 ≤ c.offset := hchanges c (by simp)
      have hrest : ∀ d ∈ changes, 1 ≤ d.offset := by
        intro d hd
        exact hchanges d (by simp [hd])
      refine ⟨h.1.passed hc, ?_⟩
      rw [← passed_insertChange hord h.1 hc]
      exact ih (hord.insertChange c) h.2 hrest

end Passing

end Ramp
end Polyphony
