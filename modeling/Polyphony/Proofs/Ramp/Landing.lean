import Polyphony.Proofs.Ramp.Regime
import Polyphony.Proofs.Ramp.Splitting

/-!
# The last goal is reached

Whatever was scheduled, and whatever the ramp was doing, the value scheduled last
is the one that it comes to.  Rendering a block uses up all pending changes.  From
the sample on at which the last of them takes effect, the ramp goes to its value in
equal steps, lands on it exactly at the end of the glide time, and stays there,
however the frames to come are cut into blocks.

**Results.**
* `Nears.next`: one frame of a glide, and `Nears.iterate`: many of them.
* `nears_next_of_now`: the frame in which the last change takes effect.
* `lands`: the last value scheduled is reached, and how.
-/

namespace Polyphony

/-- The value in front of a sample: the sample before it, or what the signal starts from. -/
def Signal.before? (signal : Signal) (start : Float32) : Nat → Option Float32
  | 0 => some start
  | i + 1 => signal[i]?

namespace Ramp

section Blocks

/-- Several blocks, one after the other: their signals end to end, and the ramp after them. -/
def renderAll : List Nat → Ramp → Signal × Ramp
  | [], r => (#[], r)
  | n :: lengths, r =>
    let (signal, r) := r.render n
    let (rest, r) := renderAll lengths r
    (signal ++ rest, r)

/-- With nothing pending, every block takes its frames, even one of no length. -/
theorem render_of_pending_nil
    {r : Ramp}
    (h : r.pending = [])
    (n : Nat) :
    r.render n = ((samples n r).toArray, next^[n] r) := by
  rcases Nat.eq_zero_or_pos n with rfl | hn
  · simp [render, overlay, traverse, Signal.constant, samples, dropPending_of_nil h]
  · rw [render_eq r hn, within_of_lt (by simp [h])]

/-- With nothing pending, it makes no difference how frames are cut into blocks. -/
theorem renderAll_of_pending_nil
    {r : Ramp}
    (h : r.pending = [])
    (lengths : List Nat) :
    r.renderAll lengths = ((samples lengths.sum r).toArray, next^[lengths.sum] r) := by
  induction lengths generalizing r with
  | nil => rfl
  | cons n lengths ih =>
      have hnil : (next^[n] r).pending = [] := by
        simp [pending_iterate_next, iterate_passed, h]
      simp only [renderAll, render_of_pending_nil h, ih hnil, List.sum_cons, samples_add,
        List.append_toArray, iterate_next_add]

/-- After a first block nothing is pending, so the blocks behind it only go on. -/
theorem renderAll_cons
    {n : Nat} (r : Ramp)
    (hn : 0 < n)
    (lengths : List Nat) :
    r.renderAll (n :: lengths)
      = ((samples (n + lengths.sum) (r.within n)).toArray,
          next^[n + lengths.sum] (r.within n)) := by
  simp only [renderAll, render_eq r hn, renderAll_of_pending_nil (pending_rendered r hn),
    samples_add, List.append_toArray, iterate_next_add]

/-- A sample is the value of the ramp after as many frames and one more. -/
theorem getElem?_renderAll_cons
    {n i : Nat} {lengths : List Nat} (r : Ramp)
    (hn : 0 < n)
    (hi : i < n + lengths.sum) :
    (r.renderAll (n :: lengths)).1[i]? = some (next^[i + 1] (r.within n)).value := by
  rw [renderAll_cons r hn, List.getElem?_toArray, getElem?_samples _ hi]

/-- The value in front of it is the one after as many frames. -/
theorem before?_renderAll_cons
    {n i : Nat} {lengths : List Nat} (r : Ramp)
    (hn : 0 < n)
    (hi : i < n + lengths.sum) :
    (r.renderAll (n :: lengths)).1.before? r.value i
      = some (next^[i] (r.within n)).value := by
  cases i with
  | zero => rfl
  | succ i => exact getElem?_renderAll_cons r hn (by omega)

end Blocks

section Landing

variable {r : Ramp} {n k : Nat}

/-- The first sample of a block of `n` at which all pending changes are due, the last one too. -/
def landing (n : Nat) (r : Ramp) : Nat :=
  (r.pending.map fun c => min c.offset (n - 1)).foldr max 0

theorem landing_le_iff :
    r.landing n ≤ k ↔ ∀ c ∈ r.pending, isDue (n - 1) k c = true := by
  unfold landing
  induction r.pending with
  | nil => simp
  | cons c pending ih => simp [ih, isDue]

/-- All changes are due at the last sample of a block. -/
theorem landing_lt
    (r : Ramp)
    (hn : 0 < n) :
    r.landing n < n := by
  have hle : r.landing n ≤ n - 1 := landing_le_iff.2 (by simp [isDue])
  omega

/-- In order, the last pending change decides when all are due. -/
theorem landing_of_ordered
    {last : Change}
    (hord : Ordered r.pending)
    (hlast : r.pending.getLast? = some last) :
    r.landing n = min last.offset (n - 1) := by
  obtain ⟨init, hinit⟩ := List.getLast?_eq_some_iff.1 hlast
  refine eq_of_forall_ge_iff fun k => ?_
  rw [hinit] at hord
  rw [landing_le_iff, hinit]
  constructor
  · intro hdue
    simpa [isDue] using hdue last (by simp)
  · intro hle c hc
    rcases List.mem_append.1 hc with hc | hc
    · have hlt := hord.lt_last c hc
      simp only [isDue, decide_eq_true_eq]
      omega
    · obtain rfl := List.mem_singleton.1 hc
      simpa [isDue] using hle

end Landing

section Nearing

variable {r : Ramp} {goal step : Float32} {left : Nat}

/-- A ramp with nothing pending that comes to its goal in equal steps, in `left` frames. -/
structure Nears (r : Ramp) (goal step : Float32) (left : Nat) : Prop where
  pending : r.pending = []
  target : r.target = goal
  remaining : r.remaining = left
  step : 0 < left → r.step = step
  landed : left = 0 → r.value = goal

/-- One frame of a glide: a step, or the goal itself at the end. -/
theorem Nears.next
    (h : r.Nears goal step left) :
    r.next.Nears goal step (left - 1)
      ∧ (1 < left → r.next.value = r.value + step) := by
  rw [next_of_pending_nil h.pending]
  rcases left with _ | _ | left
  · rw [glideOn_of_zero h.remaining]
    exact ⟨h, by simp⟩
  · rw [glideOn_of_one h.remaining]
    exact ⟨⟨h.pending, h.target, rfl, by simp, fun _ => h.target⟩, by simp⟩
  · have hstep : r.step = step := h.step (by simp)
    rw [glideOn_of_add_two h.remaining]
    refine ⟨⟨h.pending, h.target, rfl, fun _ => hstep, by simp⟩, fun _ => ?_⟩
    show r.value + r.step = r.value + step
    rw [hstep]

theorem Nears.iterate
    (h : r.Nears goal step left)
    (i : Nat) :
    (Ramp.next^[i] r).Nears goal step (left - i) := by
  induction i with
  | zero => exact h
  | succ i ih =>
      rw [Function.iterate_succ_apply']
      exact ih.next.1

/-- At the end of the glide, and from there on, the ramp is at its goal. -/
theorem Nears.value_of_le
    (h : r.Nears goal step left)
    {i : Nat}
    (hi : left ≤ i) :
    (Ramp.next^[i] r).value = goal :=
  (h.iterate i).landed (by omega)

/-- Up to the end of the glide, every frame is one step. -/
theorem Nears.value_of_lt
    (h : r.Nears goal step left)
    {i : Nat}
    (hi : i + 1 < left) :
    (Ramp.next^[i + 1] r).value = (Ramp.next^[i] r).value + step := by
  rw [Function.iterate_succ_apply']
  exact (h.iterate i).next.2 (by omega)

end Nearing

section Arrival

variable {r : Ramp}

theorem glideSamples_aimAll (changes : List Change) (r : Ramp) :
    (aimAll changes r).glideSamples = r.glideSamples :=
  congrArg Regime.glideSamples (regime_aimAll changes r)

/-- With a glide time, a goal alone does not move the ramp. -/
theorem value_aimAll
    (h : r.glideSamples ≠ 0)
    (changes : List Change) :
    (aimAll changes r).value = r.value := by
  induction changes generalizing r with
  | nil => rfl
  | cons c changes ih =>
      have haim : (r.aim c.value).glideSamples = r.glideSamples :=
        congrArg Regime.glideSamples (regime_aim r c.value)
      have hvalue : (r.aim c.value).value = r.value := by
        simp [aim, h]
      exact (ih (haim ▸ h)).trans hvalue

/-- The last of several pending changes decides where the ramp goes. -/
theorem goal_of_concat
    {init : List Change} {last : Change}
    (h : r.pending = init ++ [last]) :
    r.goal = last.value := by
  simp [goal, h]

/--
A frame in which everything pending takes effect: from then on the ramp nears its
goal, in equal steps that begin in this frame.
-/
theorem nears_next_of_now
    (hne : r.pending ≠ [])
    (hnow : ∀ c ∈ r.pending, c.isNow = true) :
    r.next.Nears r.goal ((r.goal - r.value) / Float32.ofNat r.glideSamples)
        (max r.glideSamples 1 - 1)
      ∧ (1 < r.glideSamples →
          r.next.value = r.value + (r.goal - r.value) / Float32.ofNat r.glideSamples) := by
  obtain ⟨init, last, hconcat⟩ := (List.eq_nil_or_concat' r.pending).resolve_left hne
  have hgoal : r.goal = last.value := goal_of_concat hconcat
  have hdue : due r.pending = init ++ [last] := by
    rw [due, List.takeWhile_eq_self_iff.2 hnow, hconcat]
  have hpassed : passed r.pending = [] := by
    rw [passed, List.dropWhile_eq_nil_iff.2 hnow, List.map_nil]
  have hnext : r.next = { ((aimAll init r).aim last.value).glideOn with pending := [] } := by
    simp [next, hdue, hpassed, aimAll]
  have hsamples : (aimAll init r).glideSamples = r.glideSamples := glideSamples_aimAll init r
  rw [hnext, hgoal]
  rcases hg : r.glideSamples with _ | g
  · -- without a glide time the ramp jumps, and the frame does not move it any more
    have haim : (aimAll init r).aim last.value
        = { aimAll init r with target := last.value, value := last.value, remaining := 0 } := by
      simp [aim, hsamples, hg]
    rw [haim, glideOn_of_zero rfl]
    exact ⟨⟨rfl, rfl, rfl, by simp, fun _ => rfl⟩, by simp⟩
  · have hvalue : (aimAll init r).value = r.value := value_aimAll (by simp [hg]) init
    have haim : (aimAll init r).aim last.value
        = { aimAll init r with
            target := last.value
            step := (last.value - r.value) / Float32.ofNat (g + 1)
            remaining := g + 1 } := by
      simp [aim, hsamples, hg, hvalue]
    rw [haim]
    rcases g with _ | g
    · rw [glideOn_of_one rfl]
      exact ⟨⟨rfl, rfl, rfl, by simp, fun _ => rfl⟩, by simp⟩
    · rw [glideOn_of_add_two rfl]
      exact ⟨⟨rfl, rfl, rfl, fun _ => rfl, by simp⟩, fun _ => by simp [hvalue]⟩

/-- When the last change takes effect, something is pending, and all of it is due. -/
theorem pending_at_landing
    (hne : r.pending ≠ [])
    (n : Nat) :
    (next^[r.landing n] (r.within n)).pending ≠ []
      ∧ ∀ c ∈ (next^[r.landing n] (r.within n)).pending, c.isNow = true := by
  have hdue : ∀ c ∈ r.pending, isDue (n - 1) (r.landing n) c = true :=
    landing_le_iff.1 le_rfl
  rw [pending_iterate_next, iterate_passed]
  constructor
  · -- otherwise all changes would have been due one sample earlier
    intro hnil
    have hbefore : ∀ c ∈ r.pending, min c.offset (n - 1) < r.landing n := by
      intro c hc
      have hall := List.dropWhile_eq_nil_iff.1 (List.map_eq_nil_iff.1 hnil)
      simpa [Change.isBefore, localChange] using hall _ (List.mem_map_of_mem hc)
    obtain ⟨c, hc⟩ := List.exists_mem_of_ne_nil _ hne
    have hpos : 0 < r.landing n := Nat.zero_lt_of_lt (hbefore c hc)
    have hsooner : r.landing n ≤ r.landing n - 1 := by
      refine landing_le_iff.2 fun d hd => ?_
      have hlt := hbefore d hd
      simp only [isDue, decide_eq_true_eq]
      omega
    omega
  · intro c hc
    obtain ⟨d, hd, rfl⟩ := List.mem_map.1 hc
    obtain ⟨b, hb, rfl⟩ := List.mem_map.1 ((List.dropWhile_suffix _).mem hd)
    have hle := hdue b hb
    simp only [isDue, decide_eq_true_eq] at hle
    simp only [Change.isNow, Change.offset_earlier, localChange, beq_iff_eq]
    omega

/-- From the sample at which the last change takes effect, the ramp nears its goal. -/
theorem nears_landing
    (hne : r.pending ≠ [])
    (n : Nat) :
    let start := (next^[r.landing n] (r.within n)).value
    let step := (r.goal - start) / Float32.ofNat r.glideSamples
    (next^[r.landing n + 1] (r.within n)).Nears r.goal step (max r.glideSamples 1 - 1)
      ∧ (1 < r.glideSamples →
          (next^[r.landing n + 1] (r.within n)).value = start + step) := by
  obtain ⟨hsome, hnow⟩ := pending_at_landing hne n
  have hgoal : (next^[r.landing n] (r.within n)).goal = r.goal := by
    rw [goal_iterate, goal_within]
  have hsamples : (next^[r.landing n] (r.within n)).glideSamples = r.glideSamples :=
    congrArg Regime.glideSamples (regime_iterate_next _ _)
  have hnears := nears_next_of_now hsome hnow
  rw [hgoal, hsamples] at hnears
  rw [Function.iterate_succ_apply']
  exact hnears

/-- At the end of the glide, and from there on, the samples are the goal. -/
theorem value_of_landed
    {n i : Nat}
    (hne : r.pending ≠ [])
    (hi : r.landing n + max r.glideSamples 1 - 1 ≤ i) :
    (next^[i + 1] (r.within n)).value = r.goal := by
  have hnears := (nears_landing hne n).1
  obtain ⟨j, rfl⟩ := Nat.exists_eq_add_of_le (show r.landing n ≤ i by omega)
  rw [Nat.add_right_comm, iterate_next_add]
  exact hnears.value_of_le (by omega)

/-- Up to the end of the glide, each sample is one step from the one in front of it. -/
theorem value_of_gliding
    {n i : Nat}
    (hne : r.pending ≠ [])
    (hle : r.landing n ≤ i)
    (hlt : i < r.landing n + max r.glideSamples 1 - 1) :
    (next^[i + 1] (r.within n)).value
      = (next^[i] (r.within n)).value
        + (r.goal - (next^[r.landing n] (r.within n)).value)
          / Float32.ofNat r.glideSamples := by
  obtain ⟨hnears, hfirst⟩ := nears_landing hne n
  rcases Nat.eq_or_lt_of_le hle with rfl | hbehind
  · exact hfirst (by omega)
  · have hat (m : Nat) : next^[r.landing n + 1 + m] (r.within n)
        = next^[m] (next^[r.landing n + 1] (r.within n)) :=
      iterate_next_add _ m _
    obtain ⟨j, rfl⟩ := Nat.exists_eq_add_of_le hbehind
    rw [Nat.succ_eq_add_one, Nat.add_assoc _ j 1, hat, hat]
    exact hnears.value_of_lt (by omega)

/-- Something is pending as soon as something was scheduled. -/
theorem pending_schedule_ne_nil (r : Ramp) (value : Float32) (offset : Nat) :
    (r.schedule value offset).pending ≠ [] := by
  intro hnil
  have hlast := getLast?_insertChange r.pending { value, offset }
  have hpending : insertChange r.pending { value, offset } = [] := hnil
  simp [hpending] at hlast

/--
The value that was scheduled last is reached, whatever the ramp was doing before,
and whatever else was scheduled.  A block of some length leaves nothing pending,
makes that value the target, and leaves the ramp at its last sample.  At the sample
of the block at which the last pending change takes effect a glide begins: as many
samples as it takes, one after the other, each a step of the same size from the one
in front of it, and the last one the value itself.  All samples behind it are that
value, too, however they are cut into blocks.
-/
theorem lands
    (r : Ramp) (changes : List Change) (last : Change)
    {n : Nat}
    (hn : 0 < n)
    (lengths : List Nat) :
    let s := r.scheduleAll (changes ++ [last])
    let after := (s.render n).2
    let signal := (s.renderAll (n :: lengths)).1
    let landed := s.landing n + max r.glideSamples 1 - 1
    (after.pending = [] ∧ after.target = last.value
        ∧ (s.render n).1[n - 1]? = some after.value)
      ∧ s.landing n < n
      ∧ (Ordered r.pending →
          ∀ c ∈ s.pending.getLast?, s.landing n = min c.offset (n - 1))
      ∧ signal.size = n + lengths.sum
      ∧ (∀ i < signal.size, landed ≤ i → signal[i]? = some last.value)
      ∧ ∃ start, signal.before? r.value (s.landing n) = some start
          ∧ ∀ i < signal.size, s.landing n ≤ i → i < landed →
              signal[i]? = (signal.before? r.value i).map
                (· + (last.value - start) / Float32.ofNat r.glideSamples) := by
  intro s after signal landed
  have hschedule : s = (r.scheduleAll changes).schedule last.value last.offset :=
    scheduleAll_concat r changes last
  have hsome : s.pending ≠ [] := by
    rw [hschedule]
    exact pending_schedule_ne_nil _ _ _
  have hgoal : s.goal = last.value := by
    rw [hschedule, goal_schedule]
  have hafter : after = next^[n] (s.within n) := congrArg Prod.snd (render_eq s hn)
  have hsize : signal.size = n + lengths.sum := by
    simp [signal, renderAll_cons s hn]
  have hsample : ∀ i < signal.size, signal[i]? = some (next^[i + 1] (s.within n)).value :=
    fun i hi => getElem?_renderAll_cons s hn (hsize ▸ hi)
  have hbefore : ∀ i < signal.size,
      signal.before? r.value i = some (next^[i] (s.within n)).value :=
    fun i hi => before?_renderAll_cons s hn (hsize ▸ hi)
  have hlanding : s.landing n < n := landing_lt s hn
  refine ⟨⟨?_, ?_, ?_⟩, hlanding, ?_, hsize, ?_, _, hbefore _ (by omega), ?_⟩
  · rw [hafter, pending_rendered s hn]
  · rw [hafter, target_rendered s hn, hgoal]
  · have hlast : n - 1 + 1 = n := by
      omega
    rw [hafter, render_eq s hn, List.getElem?_toArray, getElem?_samples _ (by omega), hlast]
  · intro hord c hc
    exact landing_of_ordered (hord.insertAll _) hc
  · intro i hi hle
    rw [hsample i hi, value_of_landed hsome hle, hgoal]
  · intro i hi hle hlt
    rw [hsample i hi, hbefore i hi, value_of_gliding hsome hle hlt, hgoal]
    rfl

/-- A ramp with a glide of four samples that is about to rise to one. -/
def risingRamp : Ramp :=
  { pending := [⟨1.0, 2⟩], sampleRate := 1000.0, glideSeconds := 0.004, glideSamples := 4 }

/-- It turns around at the last sample of the block, and comes to rest within the fourth block. -/
theorem lands_risingRamp :
    0 < 6
      ∧ let s := risingRamp.scheduleAll ([⟨0.25, 9⟩, ⟨0.75, 3⟩] ++ [⟨0.5, 1⟩])
        let signal := (s.renderAll [6, 1, 0, 5]).1
        s.landing 6 = 5
          ∧ signal = #[0.0, 0.0, 0.25, 0.5, 0.75, 0.6875, 0.625, 0.5625, 0.5, 0.5, 0.5, 0.5]
          ∧ ((s.render 6).2.pending = [] ∧ (s.render 6).2.target = 0.5)
          ∧ (∀ i < signal.size, 8 ≤ i → signal[i]? = some 0.5)
          ∧ ∃ start, signal.before? 0.0 5 = some start
              ∧ ∀ i < signal.size, 5 ≤ i → i < 8 →
                  signal[i]? = (signal.before? 0.0 i).map (· + (0.5 - start) / Float32.ofNat 4) := by
  have hn : 0 < 6 := by
    decide
  obtain ⟨⟨hpending, htarget, _⟩, _, _, _, hlanded, hgliding⟩ :=
    lands risingRamp [⟨0.25, 9⟩, ⟨0.75, 3⟩] ⟨0.5, 1⟩ hn [1, 0, 5]
  exact ⟨hn, by decide, by decide +kernel, ⟨hpending, htarget⟩, hlanded, hgliding⟩

end Arrival

end Ramp
end Polyphony
