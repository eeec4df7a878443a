import Polyphony.Proofs.Binary32.Order
import Polyphony.Proofs.Voice.Bank

/-!
# Which voice a new note gets

The choice of a voice is made by three searches.  Here it is said what they look for,
without saying how.

**Leading.**  The oldest and the nearest voice are found in one way: a candidate gives
way to a later one only if that is better.  What is found is at least as good as all
others, and better than those before it.

**Deserving.**  A voice deserves a new note if it is free, and the first free one in
the order of the search; or no voice is free, and it has been sustained for longest;
or all voices are held, and its note is the nearest one.

**Result.**
* `deserves_of_choose?`: a new note gets a voice that deserves it.
-/

namespace Polyphony

section Leading

variable {κ : Type} [LinearOrder κ] {β : Type}

/-- The one of two candidates that is kept: the earlier one, unless the later one has a smaller key. -/
def leader (key : β → κ) (best next : β) : β :=
  if key next < key best then next else best

/--
The candidate that is kept of several ones in order is one of them; no other one has a
smaller key, and none before it an equal one.
-/
theorem foldl_leader
    (key : β → κ) (place : β → Nat) (entrants : List β) :
    ∀ best : β, (best :: entrants).Pairwise (fun p q => place p ≤ place q) →
      entrants.foldl (leader key) best ∈ best :: entrants
        ∧ ∀ q ∈ best :: entrants,
          key (entrants.foldl (leader key) best) ≤ key q
            ∧ (place q < place (entrants.foldl (leader key) best) →
                key (entrants.foldl (leader key) best) < key q) := by
  induction entrants with
  | nil =>
      intro best _
      refine ⟨List.mem_singleton.2 rfl, ?_⟩
      intro q hq
      rw [List.mem_singleton.1 hq]
      exact ⟨le_rfl, fun h => absurd h (Nat.lt_irrefl _)⟩
  | cons next entrants ih =>
      intro best hsorted
      rw [List.foldl_cons]
      obtain ⟨hbest, hrest⟩ := List.pairwise_cons.1 hsorted
      obtain ⟨hnext, hentrants⟩ := List.pairwise_cons.1 hrest
      have hle : place best ≤ place next := hbest next List.mem_cons_self
      by_cases hbeats : key next < key best
      · -- the later candidate is kept, and the earlier one has a larger key
        have hkept : leader key best next = next := if_pos hbeats
        rw [hkept]
        obtain ⟨hmem, hall⟩ := ih next hrest
        refine ⟨List.mem_cons_of_mem _ hmem, ?_⟩
        intro q hq
        rcases List.mem_cons.1 hq with rfl | hq
        · have hlt := lt_of_le_of_lt (hall next List.mem_cons_self).1 hbeats
          exact ⟨hlt.le, fun _ => hlt⟩
        · exact hall q hq
      · have hkept : leader key best next = best := if_neg hbeats
        have hsame : (best :: entrants).Pairwise fun p q => place p ≤ place q :=
          List.pairwise_cons.2 ⟨fun q hq => hbest q (List.mem_cons_of_mem _ hq), hentrants⟩
        rw [hkept]
        obtain ⟨hmem, hall⟩ := ih best hsame
        obtain ⟨hleast, hfirst⟩ := hall best List.mem_cons_self
        refine ⟨?_, ?_⟩
        · rcases List.mem_cons.1 hmem with heq | hmem
          · rw [heq]
            exact List.mem_cons_self
          · exact List.mem_cons_of_mem _ (List.mem_cons_of_mem _ hmem)
        · intro q hq
          rcases List.mem_cons.1 hq with rfl | hq
          · exact ⟨hleast, hfirst⟩
          rcases List.mem_cons.1 hq with rfl | hq
          · have hworse : key best ≤ key q := not_lt.1 hbeats
            exact ⟨hleast.trans hworse,
              fun hplace => lt_of_lt_of_le (hfirst (lt_of_le_of_lt hle hplace)) hworse⟩
          · exact hall q (List.mem_cons_of_mem _ hq)

end Leading

namespace Bank

section Specification

/-- The number of the voice at which the search for a free one begins. -/
def searchStart (b : Bank) (rotate : Bool) : Nat :=
  if rotate then b.rotation.toNat % b.count else 0

/-- A voice is the free one that comes first, counted around from where the search begins. -/
structure IsFirstFree (b : Bank) (rotate : Bool) (id : Nat) (v : Voice) : Prop where
  off : v.phase = .off
  first : ∃ k, k < b.count ∧ id = (b.searchStart rotate + k) % b.count
    ∧ ∀ j, j < k → ∀ u, b.voices[(b.searchStart rotate + j) % b.count]? = some u → u.phase ≠ .off

/-- A voice is the sustained one of the greatest age, and of equal ones the first. -/
structure IsOldestSustained (b : Bank) (id : Nat) (v : Voice) : Prop where
  sustained : v.phase = .sustained
  oldest : ∀ i u, i < b.count → b.voices[i]? = some u → u.phase = .sustained → u.age ≤ v.age
  first : ∀ i u, i < id → b.voices[i]? = some u → u.phase = .sustained → u.age < v.age

/-- A voice is the one with the nearest note, and of equal ones the first. -/
structure IsNearest (b : Bank) (note : Float32) (id : Nat) (v : Voice) : Prop where
  near : distance note v < farthestNote
  nearest : ∀ i u, i < b.count → b.voices[i]? = some u → ¬ distance note u < distance note v
  first : ∀ i u, i < id → b.voices[i]? = some u →
    (distance note u).isNaN = true ∨ distance note v < distance note u

/-- A voice deserves a new note. -/
structure Deserves (b : Bank) (note : Float32) (rotate : Bool) (id : Nat) (v : Voice) : Prop where
  playing : id < b.count
  voice : b.voices[id]? = some v
  free : (∃ u ∈ b.active, u.phase = .off) → b.IsFirstFree rotate id v
  oldest : (∀ u ∈ b.active, u.phase ≠ .off) → (∃ u ∈ b.active, u.phase = .sustained) →
    b.IsOldestSustained id v
  nearest : (∀ u ∈ b.active, u.phase = .held) →
    (∃ u ∈ b.active, distance note u < farthestNote) → b.IsNearest note id v

end Specification

section Searching

variable {b : Bank} {note : Float32} {rotate : Bool} {id : Nat}

theorem isFree_iff {v : Voice} (hv : b.voices[id]? = some v) :
    b.isFree id = true ↔ v.phase = .off := by
  simp [isFree, voice?, hv, Voice.isOff]

/-- The search goes around once, from where it begins. -/
theorem searchOrder_eq (b : Bank) (rotate : Bool) :
    b.searchOrder rotate
      = (List.range b.count).map fun k => (b.searchStart rotate + k) % b.count := by
  unfold searchOrder searchStart
  refine List.map_congr_left ?_
  intro k hk
  have hlt : k < b.count := List.mem_range.1 hk
  cases rotate with
  | true => simp [Nat.add_comm]
  | false => simp [Nat.mod_eq_of_lt hlt]

/-- The search comes to every voice that plays notes. -/
theorem exists_turn
    (rotate : Bool)
    (h : id < b.count) :
    ∃ k, k < b.count ∧ (b.searchStart rotate + k) % b.count = id := by
  have hstart : b.searchStart rotate < b.count := by
    unfold searchStart
    split
    · exact Nat.mod_lt _ (by omega)
    · omega
  by_cases hle : b.searchStart rotate ≤ id
  · refine ⟨id - b.searchStart rotate, by omega, ?_⟩
    rw [show b.searchStart rotate + (id - b.searchStart rotate) = id by omega]
    exact Nat.mod_eq_of_lt h
  · refine ⟨id + b.count - b.searchStart rotate, by omega, ?_⟩
    rw [show b.searchStart rotate + (id + b.count - b.searchStart rotate) = id + b.count by omega,
      Nat.add_mod_right]
    exact Nat.mod_eq_of_lt h

theorem isFirstFree_of_free?
    (h : b.free? rotate = some id)
    {v : Voice}
    (hv : b.voices[id]? = some v) :
    b.IsFirstFree rotate id v := by
  unfold free? at h
  rw [searchOrder_eq, List.find?_map] at h
  obtain ⟨k, hfind, rfl⟩ := Option.map_eq_some_iff.1 h
  obtain ⟨hfree, hk, hbefore⟩ := List.find?_range_eq_some.1 hfind
  refine ⟨(isFree_iff hv).1 hfree, k, List.mem_range.1 hk, rfl, ?_⟩
  intro j hj u hu hoff
  have hbusy := hbefore j hj
  have hfree : b.isFree ((b.searchStart rotate + j) % b.count) = true := (isFree_iff hu).2 hoff
  simp [hfree] at hbusy

/-- A search without success shows that no voice is free. -/
theorem busy_of_free?_eq_none
    (h : b.free? rotate = none)
    {v : Voice}
    (hid : id < b.count)
    (hv : b.voices[id]? = some v) :
    v.phase ≠ .off := by
  intro hoff
  obtain ⟨k, hk, hturn⟩ := exists_turn rotate hid
  unfold free? at h
  rw [searchOrder_eq, List.find?_eq_none] at h
  refine h id ?_ ((isFree_iff hv).2 hoff)
  rw [← hturn]
  exact List.mem_map_of_mem (List.mem_range.2 hk)

/-- The voices that play notes, with their numbers. -/
def numbered (b : Bank) : List (Nat × Voice) :=
  b.active.zipIdx.map Prod.swap

theorem mem_numbered {p : Nat × Voice} :
    p ∈ b.numbered ↔ p.1 < b.count ∧ b.voices[p.1]? = some p.2 := by
  have hmem : p ∈ b.numbered ↔ b.active[p.1]? = some p.2 := by
    unfold numbered
    rw [List.mem_map]
    constructor
    · rintro ⟨q, hq, rfl⟩
      exact List.mk_mem_zipIdx_iff_getElem?.1 hq
    · intro h
      exact ⟨p.swap, List.mk_mem_zipIdx_iff_getElem?.2 h, Prod.swap_swap p⟩
  rw [hmem]
  unfold active
  rw [List.getElem?_take]
  by_cases hlt : p.1 < b.count
  · simp [hlt]
  · simp [hlt]

theorem sorted_numbered (b : Bank) :
    b.numbered.Pairwise fun p q => p.1 ≤ q.1 := by
  have hnumbers : b.numbered.map Prod.fst = List.range' 0 b.active.length := by
    unfold numbered
    rw [List.map_map]
    exact List.zipIdx_map_snd 0 b.active
  have hsorted : (b.numbered.map Prod.fst).Pairwise (· ≤ ·) := by
    rw [hnumbers]
    exact List.pairwise_le_range'
  exact List.pairwise_map.1 hsorted

/-- A candidate gives way to the next one only if that is better. -/
theorem foldl_challenge
    {κ : Type} [LinearOrder κ]
    {better : Voice → Voice → Bool}
    (key : Voice → κ)
    (hbetter : ∀ v w, better v w = true ↔ key v < key w)
    (entrants : List (Nat × Voice)) :
    ∀ best : Nat × Voice,
      entrants.foldl (challenge better) (some best)
        = some (entrants.foldl (leader fun p => key p.2) best) := by
  induction entrants with
  | nil => exact fun _ => rfl
  | cons next entrants ih =>
      intro best
      have hstep : challenge better (some best) next
          = some (leader (fun p => key p.2) best next) := by
        unfold challenge leader
        simp only [hbetter]
        split <;> rfl
      rw [List.foldl_cons, List.foldl_cons, hstep, ih]

/-- The sustained voices that play, with their numbers. -/
def sustainedOnes (b : Bank) : List (Nat × Voice) :=
  b.numbered.filter fun p => p.2.phase == .sustained

theorem mem_sustainedOnes {p : Nat × Voice} :
    p ∈ b.sustainedOnes
      ↔ (p.1 < b.count ∧ b.voices[p.1]? = some p.2) ∧ p.2.phase = .sustained := by
  unfold sustainedOnes
  rw [List.mem_filter, mem_numbered, beq_iff_eq]

/-- Of the sustained voices the oldest one is found. -/
theorem oldestSustained?_eq (b : Bank) :
    b.oldestSustained?
      = (b.sustainedOnes.foldl (challenge fun v w => w.age < v.age) none).map Prod.fst := by
  rfl

theorem oldestSustained?_eq_none
    (h : ∀ u ∈ b.active, u.phase ≠ .sustained) :
    b.oldestSustained? = none := by
  have hnil : b.sustainedOnes = [] := by
    rw [List.eq_nil_iff_forall_not_mem]
    intro p hp
    obtain ⟨⟨hlt, hget⟩, hphase⟩ := mem_sustainedOnes.1 hp
    exact h p.2 (mem_active_iff.2 ⟨p.1, hlt, hget⟩) hphase
  rw [oldestSustained?_eq, hnil]
  rfl

theorem isOldestSustained_of_exists
    (h : ∃ u ∈ b.active, u.phase = .sustained) :
    ∃ id v, b.oldestSustained? = some id ∧ b.voices[id]? = some v ∧ b.IsOldestSustained id v := by
  have hsorted : b.sustainedOnes.Pairwise fun p q => p.1 ≤ q.1 :=
    (sorted_numbered b).filter _
  obtain ⟨u, hu, hphase⟩ := h
  obtain ⟨i, hi, hget⟩ := mem_active_iff.1 hu
  have hmem : (i, u) ∈ b.sustainedOnes := mem_sustainedOnes.2 ⟨⟨hi, hget⟩, hphase⟩
  rw [oldestSustained?_eq]
  cases hones : b.sustainedOnes with
  | nil =>
      rw [hones] at hmem
      cases hmem
  | cons first others =>
      -- the greatest age is the least one in the dual order
      rw [List.foldl_cons]
      show ∃ id v, Option.map Prod.fst (others.foldl _ (some first)) = some id ∧ _
      rw [foldl_challenge (fun v : Voice => OrderDual.toDual v.age)
        (fun v w => by simp) others first]
      rw [hones] at hsorted
      obtain ⟨hone, hleast⟩ :=
        foldl_leader (fun p : Nat × Voice => OrderDual.toDual p.2.age) Prod.fst others first hsorted
      rw [← hones] at hone hleast
      obtain ⟨⟨_, hwinner⟩, hsustained⟩ := mem_sustainedOnes.1 hone
      refine ⟨_, _, rfl, hwinner, hsustained, ?_, ?_⟩
      · intro j w hj hw hkept
        exact OrderDual.toDual_le_toDual.1
          (hleast (j, w) (mem_sustainedOnes.2 ⟨⟨hj, hw⟩, hkept⟩)).1
      · intro j w hj hw hkept
        have hlt := (mem_sustainedOnes.1 hone).1.1
        exact OrderDual.toDual_lt_toDual.1
          ((hleast (j, w) (mem_sustainedOnes.2 ⟨⟨hj.trans hlt, hw⟩, hkept⟩)).2 hj)

/-- Distances are compared by their ranks, as long as the least one so far is a number. -/
theorem foldl_approach
    (note : Float32) (entrants : List (Voice × Nat)) :
    ∀ best : Nat × Float32, best.2.isNaN = false →
      entrants.foldl (approach note) best
        = (entrants.map fun p => (p.2, distance note p.1)).foldl
            (leader fun q => Binary32.rank q.2) best := by
  induction entrants with
  | nil => exact fun _ _ => rfl
  | cons next entrants ih =>
      intro best hbest
      have hless := Binary32.lt_iff_rank_lt (distance note next.1) best.2
      rw [List.foldl_cons, List.map_cons, List.foldl_cons]
      by_cases hnear : distance note next.1 < best.2
      · have hstep : approach note best next = (next.2, distance note next.1) := if_pos hnear
        have hlead : leader (fun q : Nat × Float32 => Binary32.rank q.2) best
            (next.2, distance note next.1) = (next.2, distance note next.1) :=
          if_pos (hless.1 hnear).2
        rw [hstep, hlead]
        exact ih _ (Binary32.isNaN_of_lt hnear)
      · have hstep : approach note best next = best := if_neg hnear
        have hlead : leader (fun q : Nat × Float32 => Binary32.rank q.2) best
            (next.2, distance note next.1) = best :=
          if_neg fun hrank => hnear (hless.2 ⟨hbest, hrank⟩)
        rw [hstep, hlead]
        exact ih _ hbest

theorem isNaN_farthestNote : farthestNote.isNaN = false := by
  decide

/-- The distances of the voices that play, with their numbers. -/
def distances (b : Bank) (note : Float32) : List (Nat × Float32) :=
  b.numbered.map fun p => (p.1, distance note p.2)

theorem nearest_eq (b : Bank) (note : Float32) :
    b.nearest note
      = ((b.distances note).foldl (leader fun q => Binary32.rank q.2) (0, farthestNote)).1 := by
  have hfold := foldl_approach note b.active.zipIdx (0, farthestNote) isNaN_farthestNote
  unfold nearest distances numbered
  rw [hfold, List.map_map]
  rfl

theorem isNearest_of_exists
    (h : ∃ u ∈ b.active, distance note u < farthestNote) :
    ∃ v, b.voices[b.nearest note]? = some v ∧ b.IsNearest note (b.nearest note) v := by
  have hsorted : ((0, farthestNote) :: b.distances note).Pairwise fun p q => p.1 ≤ q.1 :=
    List.pairwise_cons.2 ⟨fun q _ => Nat.zero_le q.1, List.pairwise_map.2 (sorted_numbered b)⟩
  obtain ⟨hone, hleast⟩ :=
    foldl_leader (fun q : Nat × Float32 => Binary32.rank q.2) Prod.fst _ _ hsorted
  rw [nearest_eq]
  generalize hwinner : (b.distances note).foldl (leader fun q => Binary32.rank q.2)
    (0, farthestNote) = winner at hone hleast ⊢
  have hmem {i : Nat} {u : Voice} (hi : i < b.count) (hu : b.voices[i]? = some u) :
      (i, distance note u) ∈ (0, farthestNote) :: b.distances note :=
    List.mem_cons_of_mem _ (List.mem_map.2 ⟨(i, u), mem_numbered.2 ⟨hi, hu⟩, rfl⟩)
  -- a voice is near, so that the one that is found is
  obtain ⟨u, hu, hnear⟩ := h
  obtain ⟨i, hi, hget⟩ := mem_active_iff.1 hu
  have hfar : Binary32.rank winner.2 < Binary32.rank farthestNote :=
    lt_of_le_of_lt (hleast _ (hmem hi hget)).1 ((Binary32.lt_iff_rank_lt _ _).1 hnear).2
  have hnearest : winner.2 < farthestNote :=
    (Binary32.lt_iff_rank_lt _ _).2 ⟨isNaN_farthestNote, hfar⟩
  rcases List.mem_cons.1 hone with rfl | hone
  · exact absurd hfar (lt_irrefl _)
  obtain ⟨⟨id, v⟩, hv, rfl⟩ := List.mem_map.1 hone
  obtain ⟨hid, hvoice⟩ := mem_numbered.1 hv
  refine ⟨v, hvoice, hnearest, ?_, ?_⟩
  · intro j w hj hw hcloser
    exact absurd ((Binary32.lt_iff_rank_lt _ _).1 hcloser).2
      (not_lt.2 (hleast _ (hmem hj hw)).1)
  · intro j w hj hw
    cases hnan : (distance note w).isNaN with
    | true => exact Or.inl rfl
    | false =>
        have hrank := (hleast _ (hmem (hj.trans hid) hw)).2 hj
        exact Or.inr ((Binary32.lt_iff_rank_lt _ _).2 ⟨hnan, hrank⟩)

end Searching

/-- A new note gets a voice that deserves it; if that is off it is free, and else stolen. -/
theorem deserves_of_choose?
    {b : Bank} {note : Float32} {rotate : Bool} {choice : Choice}
    (hfits : b.count ≤ b.voices.length)
    (h : b.choose? note rotate = some choice) :
    ∃ v, b.Deserves note rotate choice.id v
      ∧ choice = if v.isOff then .free choice.id else .stolen choice.id := by
  have hid := id_lt_of_choose? h
  have hvoice : ∃ v, b.voices[choice.id]? = some v :=
    ⟨_, List.getElem?_eq_getElem (by omega)⟩
  obtain ⟨v, hv⟩ := hvoice
  have hplays : v ∈ b.active := mem_active_iff.2 ⟨_, hid, hv⟩
  unfold choose? at h
  split at h
  · cases h
  cases hfree : b.free? rotate with
  | some found =>
      rw [hfree] at h
      obtain rfl : Choice.free found = choice := Option.some.inj h
      have hfirst : b.IsFirstFree rotate found v := isFirstFree_of_free? hfree hv
      have hoff : v.isOff = true := by
        simp [Voice.isOff, hfirst.off]
      refine ⟨v, ⟨hid, hv, fun _ => hfirst, ?_, ?_⟩, by simp [hoff, Choice.id]⟩
      · exact fun hbusy => absurd hfirst.off (hbusy v hplays)
      · intro hheld
        have hphase := hheld v hplays
        rw [hfirst.off] at hphase
        cases hphase
  | none =>
      rw [hfree] at h
      obtain rfl : Choice.stolen (b.oldestSustained?.getD (b.nearest note)) = choice :=
        Option.some.inj h
      have hbusy : ∀ u ∈ b.active, u.phase ≠ .off := by
        intro u hu
        obtain ⟨i, hi, hget⟩ := mem_active_iff.1 hu
        exact busy_of_free?_eq_none hfree hi hget
      have hon : v.isOff = false := by
        simp [Voice.isOff, hbusy v hplays]
      refine ⟨v, ⟨hid, hv, ?_, ?_, ?_⟩, by simp [hon, Choice.id]⟩
      · rintro ⟨u, hu, hoff⟩
        exact absurd hoff (hbusy u hu)
      · intro _ hkept
        obtain ⟨id, w, holdest, hget, hw⟩ := isOldestSustained_of_exists hkept
        have hchosen : (Choice.stolen (b.oldestSustained?.getD (b.nearest note))).id = id := by
          simp [Choice.id, holdest]
        rw [hchosen] at hv ⊢
        obtain rfl : w = v := Option.some.inj (hget.symm.trans hv)
        exact hw
      · intro hheld hnear
        have hnone : b.oldestSustained? = none := by
          apply oldestSustained?_eq_none
          intro u hu
          rw [hheld u hu]
          exact Phase.noConfusion
        obtain ⟨w, hget, hw⟩ := isNearest_of_exists hnear
        have hchosen : (Choice.stolen (b.oldestSustained?.getD (b.nearest note))).id
            = b.nearest note := by
          simp [Choice.id, hnone]
        rw [hchosen] at hv ⊢
        obtain rfl : w = v := Option.some.inj (hget.symm.trans hv)
        exact hw

end Bank

end Polyphony
