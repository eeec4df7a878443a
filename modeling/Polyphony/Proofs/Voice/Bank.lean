import Polyphony.Voice.Bank

/-!
# Voices by their numbers

What is done to the voices of a bank is done to each of them by its number, and
only to those below the count.

**Results.**
* `mem_active_iff`: the voices that play notes are those below the count.
* `id_lt_of_choose?`: a new note gets one of them.
-/

namespace Polyphony

namespace Bank

section Numbers

@[simp] theorem count_mapActiveIdx (b : Bank) (f : Nat → Voice → Voice) :
    (b.mapActiveIdx f).count = b.count := by
  rfl

theorem getElem?_mapActiveIdx (b : Bank) (f : Nat → Voice → Voice) (id : Nat) :
    (b.mapActiveIdx f).voices[id]?
      = b.voices[id]?.map fun v => if id < b.count then f id v else v := by
  exact List.getElem?_mapIdx

/-- Doing something to one voice that plays notes. -/
theorem modify_eq_mapActiveIdx
    (b : Bank) {chosen : Nat} (f : Voice → Voice)
    (h : chosen < b.count) :
    b.modify chosen f = b.mapActiveIdx fun id v => if id = chosen then f v else v := by
  unfold modify mapActiveIdx
  congr 1
  apply List.ext_getElem?
  intro id
  rw [List.getElem?_modify, List.getElem?_mapIdx]
  congr 1
  funext v
  by_cases hid : id = chosen
  · subst hid
    simp [h]
  · have hne : chosen ≠ id := fun heq => hid heq.symm
    simp [hid, hne]

/-- Doing one thing after the other to the voices that play notes. -/
theorem mapActiveIdx_mapActiveIdx (b : Bank) (f g : Nat → Voice → Voice) :
    (b.mapActiveIdx f).mapActiveIdx g = b.mapActiveIdx fun id v => g id (f id v) := by
  unfold mapActiveIdx
  congr 1
  apply List.ext_getElem?
  intro id
  simp only [List.getElem?_mapIdx, Option.map_map]
  congr 1
  funext v
  by_cases hid : id < b.count
  · simp [hid]
  · simp [hid]

/-- Doing nothing to the voices that play notes. -/
theorem mapActiveIdx_id (b : Bank) :
    (b.mapActiveIdx fun _ v => v) = b := by
  have hsame :
      (b.voices.mapIdx fun id v => if id < b.count then v else v) = b.voices := by
    apply List.ext_getElem?
    intro id
    simp
  unfold mapActiveIdx
  rw [hsame]

/-- The voices that play notes are those with a number below the count. -/
theorem mem_active_iff {b : Bank} {v : Voice} :
    v ∈ b.active ↔ ∃ id, id < b.count ∧ b.voices[id]? = some v := by
  unfold active
  rw [List.mem_iff_getElem?]
  constructor
  · rintro ⟨id, hid⟩
    rw [List.getElem?_take] at hid
    by_cases hlt : id < b.count
    · exact ⟨id, hlt, by simpa [hlt] using hid⟩
    · simp [hlt] at hid
  · rintro ⟨id, hlt, hid⟩
    refine ⟨id, ?_⟩
    rw [List.getElem?_take]
    simpa [hlt] using hid

/-- If any voices play notes, voice zero does. -/
theorem exists_voice_zero
    {b : Bank}
    (h : b.active ≠ []) :
    ∃ v ∈ b.active, b.voice? 0 = some v := by
  obtain ⟨v, hv⟩ := List.exists_mem_of_ne_nil _ h
  obtain ⟨id, hid, hget⟩ := mem_active_iff.1 hv
  obtain ⟨hlt, _⟩ := List.getElem?_eq_some_iff.1 hget
  have hzero : b.voices[0]? = some b.voices[0] :=
    List.getElem?_eq_getElem (by omega)
  exact ⟨b.voices[0], mem_active_iff.2 ⟨0, by omega, hzero⟩, hzero⟩

/-- The search only visits voices that play notes. -/
theorem lt_of_mem_searchOrder
    {b : Bank} {rotate : Bool} {id : Nat}
    (h : id ∈ b.searchOrder rotate) :
    id < b.count := by
  obtain ⟨k, hk, rfl⟩ := List.mem_map.1 h
  have hlt : k < b.count := List.mem_range.1 hk
  cases rotate with
  | false => exact hlt
  | true => exact Nat.mod_lt _ (by omega)

theorem lt_of_free?
    {b : Bank} {rotate : Bool} {id : Nat}
    (h : b.free? rotate = some id) :
    id < b.count :=
  lt_of_mem_searchOrder (List.mem_of_find?_eq_some h)

/-- A tournament is won by the candidate so far or by a challenger. -/
theorem foldl_challenge_mem
    {better : Voice → Voice → Bool} {entrants : List (Nat × Voice)} :
    ∀ {best : Option (Nat × Voice)} {winner : Nat × Voice},
      entrants.foldl (challenge better) best = some winner →
      best = some winner ∨ winner ∈ entrants := by
  induction entrants with
  | nil =>
      intro best winner h
      exact Or.inl h
  | cons next entrants ih =>
      intro best winner h
      rcases ih h with hstep | hmem
      · cases best with
        | none =>
            have heq : next = winner := by
              simpa [challenge] using hstep
            exact Or.inr (by simp [heq])
        | some held =>
            unfold challenge at hstep
            dsimp only at hstep
            split at hstep
            · have heq : next = winner := by
                simpa using hstep
              exact Or.inr (by simp [heq])
            · exact Or.inl hstep
      · exact Or.inr (by simp [hmem])

theorem lt_of_oldestSustained?
    {b : Bank} {id : Nat}
    (h : b.oldestSustained? = some id) :
    id < b.count := by
  unfold oldestSustained? at h
  obtain ⟨winner, hwinner, rfl⟩ := Option.map_eq_some_iff.1 h
  rcases foldl_challenge_mem hwinner with hnone | hmem
  · cases hnone
  · obtain ⟨hmem, _⟩ := List.mem_filter.1 hmem
    obtain ⟨p, hp, rfl⟩ := List.mem_map.1 hmem
    have hlt := List.snd_lt_of_mem_zipIdx hp
    have hle : b.active.length ≤ b.count := by
      unfold active
      rw [List.length_take]
      omega
    simp only [Prod.fst_swap]
    omega

theorem foldl_approach_lt
    {note : Float32} {n : Nat} {entrants : List (Voice × Nat)}
    (h : ∀ p ∈ entrants, p.2 < n) :
    ∀ {best : Nat × Float32}, best.1 < n → (entrants.foldl (approach note) best).1 < n := by
  induction entrants with
  | nil =>
      intro best hbest
      exact hbest
  | cons p entrants ih =>
      intro best hbest
      refine ih (fun q hq => h q (by simp [hq])) ?_
      unfold approach
      split
      · exact h p (by simp)
      · exact hbest

theorem nearest_lt
    {b : Bank} (note : Float32)
    (h : 0 < b.count) :
    b.nearest note < b.count := by
  refine foldl_approach_lt ?_ h
  intro p hp
  have hlt := List.snd_lt_of_mem_zipIdx hp
  have hle : b.active.length ≤ b.count := by
    unfold active
    rw [List.length_take]
    omega
  omega

/-- A new note gets a voice that plays notes. -/
theorem id_lt_of_choose?
    {b : Bank} {note : Float32} {rotate : Bool} {choice : Choice}
    (h : b.choose? note rotate = some choice) :
    choice.id < b.count := by
  unfold choose? at h
  split at h
  · cases h
  · cases hfree : b.free? rotate with
    | some id =>
        rw [hfree] at h
        cases h
        exact lt_of_free? hfree
    | none =>
        rw [hfree] at h
        cases h
        cases hold : b.oldestSustained? with
        | some id => simpa [Choice.id, hold] using lt_of_oldestSustained? hold
        | none => simpa [Choice.id, hold] using nearest_lt note (by omega)

/-- A new note gets a voice unless no voice plays notes. -/
theorem count_of_choose?_eq_none
    {b : Bank} {note : Float32} {rotate : Bool}
    (h : b.choose? note rotate = none) :
    b.count = 0 := by
  unfold choose? at h
  split at h
  case isTrue hcount => exact hcount
  case isFalse => split at h <;> cases h

end Numbers

end Bank

end Polyphony
