import Polyphony.Proofs.Ramp.Jumping

/-!
# What the first samples of a block depend on

A sample of a block depends only on the changes that are due by then.  What is
pending for later samples can be left out, and a change that is scheduled for a
later sample makes no difference, if it has a place and pushes no other change
out of the list.

**Results.**
* `next_upTo`: a frame does not look beyond its own changes.
* `value_iterate_congr`: ramps with the same changes up to a sample have the same
  value there.
* `upTo_scheduleAll`: scheduling later changes leaves the changes up to a sample
  alone.
-/

namespace Polyphony

/-- Whether a change is for one of the first `k` samples. -/
def Change.isBefore (k : Nat) (c : Change) : Bool :=
  c.offset < k

namespace Ramp

section Horizon

/-- The ramp with nothing pending but the changes for the first `k` samples. -/
def upTo (k : Nat) (r : Ramp) : Ramp :=
  { r with pending := r.pending.takeWhile (Change.isBefore k) }

/-- Of two ends the earlier one counts. -/
theorem takeWhile_takeWhile_of_imp
    {p q : Change → Bool}
    (h : ∀ c, p c = true → q c = true)
    (pending : List Change) :
    (pending.takeWhile q).takeWhile p = pending.takeWhile p := by
  have hboth : (fun c => decide (p c = true ∧ q c = true)) = p := by
    funext c
    have hiff : p c = true ∧ q c = true ↔ p c = true :=
      and_iff_left_of_imp (h c)
    simp only [hiff, Bool.decide_eq_true]
  rw [List.takeWhile_takeWhile, hboth]

/-- A change that is due now is for the first of the samples. -/
theorem isBefore_of_isNow
    {c : Change}
    (h : c.isNow = true)
    (k : Nat) :
    c.isBefore (k + 1) = true := by
  have hzero : c.offset = 0 := by
    simpa [Change.isNow] using h
  simp [Change.isBefore, hzero]

/-- The changes due now are among those for the first samples. -/
theorem due_takeWhile (k : Nat) (pending : List Change) :
    due (pending.takeWhile (Change.isBefore (k + 1))) = due pending :=
  takeWhile_takeWhile_of_imp (fun _ h => isBefore_of_isNow h k) pending

/-- When a sample passes, the changes for the samples behind it come nearer. -/
theorem passed_takeWhile (k : Nat) (pending : List Change) :
    passed (pending.takeWhile (Change.isBefore (k + 1)))
      = (passed pending).takeWhile (Change.isBefore k) := by
  induction pending with
  | nil => rfl
  | cons c pending ih =>
      cases hc : c.isNow with
      | true =>
          rw [List.takeWhile_cons_of_pos (isBefore_of_isNow hc k)]
          unfold passed at ih ⊢
          rw [List.dropWhile_cons_of_pos hc, List.dropWhile_cons_of_pos hc]
          exact ih
      | false =>
          have hkeep (l : List Change) : passed (c :: l) = (c :: l).map (Change.earlier 1) := by
            unfold passed
            rw [List.dropWhile_cons_of_neg (by simp [hc])]
          rw [hkeep, List.takeWhile_map]
          cases k with
          | zero =>
              -- no change is left for the samples up to this one
              have hlater : c.isBefore 1 = false := by
                simpa [Change.isNow, Change.isBefore, Nat.pos_iff_ne_zero] using hc
              rw [List.takeWhile_cons_of_neg (by simp [hlater]),
                List.takeWhile_cons_of_neg (by simp [Change.isBefore])]
              rfl
          | succ k =>
              have hshift : Change.isBefore (k + 1) ∘ Change.earlier 1
                  = Change.isBefore (k + 1 + 1) := by
                funext d
                have hiff : d.offset - 1 < k + 1 ↔ d.offset < k + 1 + 1 := by
                  omega
                exact decide_eq_decide.2 hiff
              rw [hshift, List.takeWhile_cons]
              split
              · exact hkeep _
              · rfl

/-- A frame does not look beyond its own changes. -/
theorem next_upTo (k : Nat) (r : Ramp) :
    (r.upTo (k + 1)).next = r.next.upTo k := by
  unfold next upTo
  dsimp only
  rw [due_takeWhile, passed_takeWhile, aimAll_withPending, glideOn_withPending]

theorem iterate_next_upTo (m k : Nat) (r : Ramp) :
    next^[m] (r.upTo (k + m)) = (next^[m] r).upTo k := by
  induction m generalizing r with
  | zero => rfl
  | succ m ih =>
      rw [Function.iterate_succ_apply, Function.iterate_succ_apply, ← Nat.add_assoc, next_upTo, ih]

/-- Ramps with the same changes up to a sample have the same value there. -/
theorem value_iterate_congr
    {r s : Ramp} {m : Nat}
    (h : s.upTo m = r.upTo m) :
    (next^[m] s).value = (next^[m] r).value := by
  have hvalue (q : Ramp) : (next^[m] q).value = (next^[m] (q.upTo m)).value := by
    have hcut := iterate_next_upTo m 0 q
    rw [Nat.zero_add] at hcut
    rw [hcut]
    rfl
  rw [hvalue, h, ← hvalue]

/-- What is the same up to a sample is the same up to an earlier one. -/
theorem upTo_upTo
    {j k : Nat} (r : Ramp)
    (h : j ≤ k) :
    (r.upTo k).upTo j = r.upTo j := by
  have himp (c : Change) (hc : c.isBefore j = true) : c.isBefore k = true := by
    simp only [Change.isBefore, decide_eq_true_eq] at hc ⊢
    omega
  unfold upTo
  dsimp only
  rw [takeWhile_takeWhile_of_imp himp]

theorem upTo_congr
    {r s : Ramp} {j k : Nat}
    (h : s.upTo k = r.upTo k)
    (hle : j ≤ k) :
    s.upTo j = r.upTo j := by
  rw [← upTo_upTo s hle, h, upTo_upTo r hle]

/-- Before the end of the block it makes no difference that later changes are moved into it. -/
theorem upTo_within
    {k n : Nat} (r : Ramp)
    (h : k < n) :
    (r.within n).upTo k = (r.upTo k).within n := by
  have hsame : Change.isBefore k ∘ localChange (n - 1) 0 = Change.isBefore k := by
    funext c
    have hiff : min c.offset (n - 1) - 0 < k ↔ c.offset < k := by
      omega
    exact decide_eq_decide.2 hiff
  unfold upTo within fromSample
  dsimp only
  rw [List.takeWhile_map, hsame]

end Horizon

section Scheduling

/-- Whether scheduling a change leaves those pending for the first `k` samples alone. -/
def Spares (k : Nat) (pending : List Change) (c : Change) : Prop :=
  k ≤ c.offset ∧ (HasPlace pending c ∨ ∀ last ∈ pending.getLast?, k ≤ last.offset)

theorem takeWhile_insertChange
    {k : Nat} {pending : List Change} {c : Change}
    (h : Spares k pending c) :
    (insertChange pending c).takeWhile (Change.isBefore k)
      = pending.takeWhile (Change.isBefore k) := by
  obtain ⟨hlater, hplace⟩ := h
  have hnew : c.isBefore k = false := by
    simpa [Change.isBefore] using hlater
  rcases insertChange_cases pending c with
    ⟨hp, hi⟩ | ⟨init, last, hp, ⟨hle, hi⟩ | ⟨_, _, hi⟩ | ⟨hlt, hfull, hi⟩⟩
  · rw [hi, hp]
    exact takeWhile_concat [] hnew
  · have hlast : last.isBefore k = false := by
      simpa [Change.isBefore] using Nat.le_trans hlater hle
    have hlast' : ({ last with value := c.value } : Change).isBefore k = false := hlast
    rw [hi, hp, takeWhile_concat init hlast, takeWhile_concat init hlast']
  · rw [hi]
    exact takeWhile_concat pending hnew
  · -- the change that gives way is not among those for the first samples
    have hlast : last.isBefore k = false := by
      have hget : last ∈ pending.getLast? := by
        simp [hp]
      rcases hplace with (hroom | ⟨last', hlast', hle⟩) | hbehind
      · omega
      · obtain rfl : last' = last := by
          simpa [hp] using hlast'.symm
        omega
      · simpa [Change.isBefore] using hbehind last hget
    rw [hi, hp, takeWhile_concat init hlast, takeWhile_concat init hnew]

/-- A change for a later sample leaves the changes up to a sample alone. -/
theorem upTo_schedule
    {k : Nat} {r : Ramp} {value : Float32} {offset : Nat}
    (h : Spares k r.pending { value, offset }) :
    (r.schedule value offset).upTo k = r.upTo k := by
  unfold upTo schedule
  dsimp only
  rw [takeWhile_insertChange h]

/-- The same for several changes that have places. -/
theorem upTo_scheduleAll
    {k : Nat} {r : Ramp} {changes : List Change}
    (hplaces : HavePlaces r.pending changes)
    (hlater : ∀ c ∈ changes, k ≤ c.offset) :
    (r.scheduleAll changes).upTo k = r.upTo k := by
  have hcut : (insertAll r.pending changes).takeWhile (Change.isBefore k)
      = r.pending.takeWhile (Change.isBefore k) := by
    generalize r.pending = pending at hplaces
    induction changes generalizing pending with
    | nil => rfl
    | cons c changes ih =>
        have hspares : Spares k pending c := ⟨hlater c List.mem_cons_self, Or.inl hplaces.1⟩
        have hrest := ih (fun d hd => hlater d (List.mem_cons_of_mem _ hd)) _ hplaces.2
        exact hrest.trans (takeWhile_insertChange hspares)
  unfold upTo scheduleAll
  dsimp only
  rw [hcut]

end Scheduling

end Ramp
end Polyphony
