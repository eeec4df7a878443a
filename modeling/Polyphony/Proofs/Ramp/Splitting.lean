import Polyphony.Proofs.Ramp.Horizon

/-!
# Cutting a block in two

A ramp moves by itself, one frame after the other, and the changes that wait for
later frames only come nearer.  So it makes no difference where a block ends: what
a block renders is what two shorter ones render one after the other, if the
changes for the second are scheduled behind the first.

**Results.**
* `iterate_passed`: what is pending after some samples have passed.
* `scheduleAll_of_ordered`: changes in order that fit are pending as they came.
* `render_add`: a block may be cut in two at any sample.
-/

namespace Polyphony
namespace Ramp

section Passing

/-- Of two beginnings that are left out the longer one counts. -/
theorem dropWhile_dropWhile_of_imp
    {p q : Change → Bool}
    (h : ∀ c, p c = true → q c = true)
    (pending : List Change) :
    (pending.dropWhile p).dropWhile q = pending.dropWhile q := by
  induction pending with
  | nil => rfl
  | cons c pending ih =>
      cases hp : p c with
      | true => simp [hp, h c hp, ih]
      | false => simp [hp]

/-- What is pending after `n` samples have passed: the later changes, counted from there. -/
theorem iterate_passed (n : Nat) (pending : List Change) :
    passed^[n] pending = (pending.dropWhile (Change.isBefore n)).map (Change.earlier n) := by
  induction n with
  | zero =>
      have hnone : Change.isBefore 0 = fun _ => false := by
        funext c
        simp [Change.isBefore]
      have hsame : Change.earlier 0 = id := by
        funext c
        simp [Change.earlier]
      cases pending with
      | nil => rfl
      | cons c pending => simp [hnone, hsame]
  | succ n ih =>
      have hnow : Change.isNow ∘ Change.earlier n = Change.isBefore (n + 1) := by
        funext c
        simp [Change.isNow, Change.isBefore, beq_eq_decide, Nat.sub_eq_zero_iff_le]
      have hearlier : Change.earlier 1 ∘ Change.earlier n = Change.earlier (n + 1) := by
        funext c
        simp [Change.earlier, Nat.sub_sub]
      have hbefore (c : Change) (hc : c.isBefore n = true) : c.isBefore (n + 1) = true := by
        simp only [Change.isBefore, decide_eq_true_eq] at hc ⊢
        omega
      rw [Function.iterate_succ_apply', ih, passed, List.dropWhile_map, List.map_map, hnow,
        hearlier, dropWhile_dropWhile_of_imp hbefore]

theorem pending_iterate_next (n : Nat) (r : Ramp) :
    (next^[n] r).pending = passed^[n] r.pending := by
  induction n generalizing r with
  | zero => rfl
  | succ n ih => simp [ih]

end Passing

section Order

variable {pending : List Change}

/-- In order, a change that is not for the first `n` samples has none for them behind it. -/
theorem Ordered.not_isBefore
    {c : Change} {n : Nat}
    (h : Ordered (c :: pending))
    (hc : c.isBefore n = false) :
    ∀ d ∈ pending, d.isBefore n = false := by
  intro d hd
  have hlt : c.offset < d.offset := (List.pairwise_cons.1 h).1 d hd
  simp only [Change.isBefore, decide_eq_false_iff_not] at hc ⊢
  omega

/-- In order, the changes for the first `n` samples are those at the front. -/
theorem Ordered.takeWhile_eq_filter
    (h : Ordered pending)
    (n : Nat) :
    pending.takeWhile (Change.isBefore n) = pending.filter (Change.isBefore n) := by
  induction pending with
  | nil => rfl
  | cons c pending ih =>
      cases hc : c.isBefore n with
      | true => simp [hc, ih (List.pairwise_cons.1 h).2]
      | false => simpa [hc] using h.not_isBefore hc

/-- In order, the changes for later samples are those behind. -/
theorem Ordered.dropWhile_eq_filter
    (h : Ordered pending)
    (n : Nat) :
    pending.dropWhile (Change.isBefore n) = pending.filter fun c => !c.isBefore n := by
  induction pending with
  | nil => rfl
  | cons c pending ih =>
      cases hc : c.isBefore n with
      | true => simp [hc, ih (List.pairwise_cons.1 h).2]
      | false =>
          have hall : pending.filter (fun d => !d.isBefore n) = pending :=
            List.filter_eq_self.2 fun d hd => by simp [h.not_isBefore hc d hd]
          simp [hc, hall]

/-- The order is kept when the changes are counted from a sample in front of them. -/
theorem Ordered.map_earlier
    {n : Nat}
    (h : Ordered pending)
    (hlater : ∀ c ∈ pending, n ≤ c.offset) :
    Ordered (pending.map (Change.earlier n)) := by
  refine List.pairwise_map.2 (h.imp_of_mem ?_)
  intro c d hc hd hlt
  have hfirst := hlater c hc
  simp only [Change.offset_earlier]
  omega

end Order

section Scheduling

/-- Several changes are scheduled one after the other. -/
theorem scheduleAll_cons (r : Ramp) (c : Change) (changes : List Change) :
    r.scheduleAll (c :: changes) = (r.schedule c.value c.offset).scheduleAll changes := by
  rfl

theorem scheduleAll_concat (r : Ramp) (changes : List Change) (c : Change) :
    r.scheduleAll (changes ++ [c]) = (r.scheduleAll changes).schedule c.value c.offset := by
  simp [scheduleAll, schedule, insertAll]

/-- A change that is later than all pending ones, and for which there is room, comes last. -/
theorem insertChange_of_ordered
    {pending : List Change} {c : Change}
    (hord : Ordered (pending ++ [c]))
    (hroom : pending.length < maxPending) :
    insertChange pending c = pending ++ [c] := by
  rcases insertChange_cases pending c with
    ⟨rfl, hi⟩ | ⟨init, last, rfl, ⟨hle, hi⟩ | ⟨_, _, hi⟩ | ⟨_, hfull, _⟩⟩
  · exact hi
  · have hlt := hord.lt_last last (by simp)
    omega
  · exact hi
  · omega

/-- Changes in order that fit are pending as they came. -/
theorem scheduleAll_of_ordered
    {r : Ramp} {changes : List Change}
    (hord : Ordered (r.pending ++ changes))
    (hroom : (r.pending ++ changes).length ≤ maxPending) :
    r.scheduleAll changes = { r with pending := r.pending ++ changes } := by
  induction changes generalizing r with
  | nil => simp [scheduleAll, insertAll]
  | cons c changes ih =>
      rw [List.append_cons] at hord hroom ⊢
      have hfirst : Ordered (r.pending ++ [c]) := (List.pairwise_append.1 hord).1
      have hshort : r.pending.length < maxPending := by
        simp only [List.length_append, List.length_singleton] at hroom
        omega
      have hinsert : (r.schedule c.value c.offset).pending = r.pending ++ [c] :=
        insertChange_of_ordered hfirst hshort
      rw [scheduleAll_cons, ih (hinsert ▸ hord) (hinsert ▸ hroom), hinsert]
      rfl

end Scheduling

section Splitting

/-- The ramp with nothing pending but the changes for the first `n` samples. -/
def early (n : Nat) (r : Ramp) : Ramp :=
  { r with pending := r.pending.filter (Change.isBefore n) }

/-- The changes for later samples, counted from sample `n` on. -/
def late (n : Nat) (r : Ramp) : List Change :=
  (r.pending.filter fun c => !c.isBefore n).map (Change.earlier n)

theorem iterate_next_add (n m : Nat) (r : Ramp) :
    next^[n + m] r = next^[m] (next^[n] r) := by
  rw [Nat.add_comm, Function.iterate_add_apply]

theorem samples_add (n m : Nat) (r : Ramp) :
    samples (n + m) r = samples n r ++ samples m (next^[n] r) := by
  induction n generalizing r with
  | zero => simp [samples]
  | succ n ih => simp [Nat.succ_add, samples, ih]

/-- In order, the changes for the first samples are those up to one. -/
theorem Ordered.early_eq
    {r : Ramp}
    (h : Ordered r.pending)
    (n : Nat) :
    r.early n = r.upTo n := by
  simp [early, upTo, h.takeWhile_eq_filter]

/-- The first samples do not depend on the changes for later ones. -/
theorem samples_upTo (n : Nat) (r : Ramp) :
    samples n (r.upTo n) = samples n r := by
  apply List.ext_getElem?
  intro i
  by_cases hi : i < n
  · have hsame : (r.upTo n).upTo (i + 1) = r.upTo (i + 1) := upTo_upTo r hi
    rw [getElem?_samples _ hi, getElem?_samples _ hi, value_iterate_congr hsame]
  · rw [List.getElem?_eq_none (by simpa using hi), List.getElem?_eq_none (by simpa using hi)]

/-- After the first samples, the changes for later ones are all that is missing. -/
theorem iterate_next_early
    {r : Ramp}
    (hord : Ordered r.pending)
    (n : Nat) :
    next^[n] r = { next^[n] (r.early n) with pending := r.late n } := by
  have hcut : next^[n] (r.early n) = (next^[n] r).upTo 0 := by
    rw [hord.early_eq, ← iterate_next_upTo, Nat.zero_add]
  have hlate : (next^[n] r).pending = r.late n := by
    rw [pending_iterate_next, iterate_passed, hord.dropWhile_eq_filter, late]
  rw [hcut, ← hlate]
  rfl

/--
A block may be cut in two at any sample, whatever the ramp is doing.  If the
pending changes are in order, fit, and are all for the block, then rendering the
first part with the changes for its samples, and then the second part with the
other changes scheduled behind it, renders the same signal and leaves the same ramp.
-/
theorem render_add
    {n m : Nat} {r : Ramp}
    (hn : 0 < n) (hm : 0 < m)
    (hord : Ordered r.pending)
    (hroom : r.pending.length ≤ maxPending)
    (hwithin : ∀ c ∈ r.pending, c.offset < n + m) :
    let first := (r.early n).render n
    let second := (first.2.scheduleAll (r.late n)).render m
    r.render (n + m) = (first.1 ++ second.1, second.2) := by
  have hearly : ∀ c ∈ (r.early n).pending, c.offset < n := by
    intro c hc
    simpa [Change.isBefore] using (List.mem_filter.1 hc).2
  have hlate : ∀ c ∈ r.late n, c.offset < m := by
    intro c hc
    obtain ⟨d, hd, rfl⟩ := List.mem_map.1 hc
    have hlt := hwithin d (List.mem_filter.1 hd).1
    simp only [Change.offset_earlier]
    omega
  have hordered : Ordered (r.late n) := by
    refine Ordered.map_earlier (hord.sublist List.filter_sublist) ?_
    intro c hc
    simpa [Change.isBefore] using (List.mem_filter.1 hc).2
  have hfits : (r.late n).length ≤ maxPending :=
    (List.length_map _).trans_le ((List.length_filter_le _ _).trans hroom)
  have hnil : (next^[n] (r.early n)).pending = [] :=
    pending_iterate pending_next hearly
  -- behind the first part, the changes for the second are pending just as they are in one block
  have hsecond : (next^[n] (r.early n)).scheduleAll (r.late n) = next^[n] r := by
    rw [iterate_next_early hord, scheduleAll_of_ordered (by simpa [hnil] using hordered)
      (by simpa [hnil] using hfits), hnil, List.nil_append]
  have hlater : ∀ c ∈ (next^[n] r).pending, c.offset < m := by
    rw [iterate_next_early hord]
    exact hlate
  have hfirst : samples n (r.early n) = samples n r := by
    rw [hord.early_eq, samples_upTo]
  dsimp only
  rw [render_eq r (by omega), render_eq _ hn, within_of_lt hwithin, within_of_lt hearly]
  dsimp only
  rw [hsecond, render_eq _ hm, within_of_lt hlater, samples_add, hfirst, iterate_next_add,
    List.append_toArray]

/-- A ramp with a glide of four samples, that turns to a new goal as it gets near the first. -/
def twoGoals : Ramp :=
  { pending := [⟨1.0, 1⟩, ⟨0.5, 4⟩], sampleRate := 1000.0, glideSeconds := 0.004,
    glideSamples := 4 }

/-- The block is cut within the first glide, and the second one begins in the second part. -/
theorem render_add_twoGoals :
    Ordered twoGoals.pending
      ∧ twoGoals.pending.length ≤ maxPending
      ∧ (∀ c ∈ twoGoals.pending, c.offset < 3 + 5)
      ∧ let first := (twoGoals.early 3).render 3
        let second := (first.2.scheduleAll (twoGoals.late 3)).render 5
        first.1 = #[0.0, 0.25, 0.5]
          ∧ second.1 = #[0.75, 0.6875, 0.625, 0.5625, 0.5]
          ∧ twoGoals.render (3 + 5) = (first.1 ++ second.1, second.2) := by
  have hord : Ordered twoGoals.pending := by
    simp [Ordered, twoGoals]
  have hroom : twoGoals.pending.length ≤ maxPending := by
    decide
  have hwithin : ∀ c ∈ twoGoals.pending, c.offset < 3 + 5 := by
    decide
  exact ⟨hord, hroom, hwithin, by decide +kernel, by decide +kernel,
    render_add (by decide) (by decide) hord hroom hwithin⟩

end Splitting

end Ramp
end Polyphony
