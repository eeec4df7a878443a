import Polyphony.Proofs.Engine.Course
import Polyphony.Proofs.Engine.InForce

/-!
# When the drift draws, and what

While the drift is on, some blocks draw new goals for the voices that play notes.  The
first block does, and after it every block that is the first one to begin more than an
interval after the beginning of the last block that drew.  So the distance of two draws
is more than an interval, but by no more than the block before the later one.

**Numbers.**  A draw takes one number of the random source for every voice that plays
notes, in the order of the voices, and nothing else takes any.

**Events.**  Events change neither when goals are drawn nor which.

**Results.**
* `KeepsTime.passed`: the clock keeps time over a block.
* `keeps_time`: how long ago the last draw was, and where the random source is, after
  any run in which the drift goes on.
* `OnSchedule.gap`: how far two draws are apart.
* `goals?_openings`: runs that differ in events alone draw the same goals.
* `drift_on_schedule`: which blocks draw, how far they are apart, and what they draw.
-/

namespace Polyphony

/-- A block that begins: the engine, its settings applied, and the frames of the block. -/
structure Opening where
  engine : Engine
  frames : Nat

namespace Opening

/-- Whether the block draws goals. -/
def draws (b : Opening) : Bool :=
  decide (0.0 < b.engine.settings.drift) && b.engine.drift.isDue

/-- While the drift is on, a block draws if that is due. -/
theorem draws_of_on
    {b : Opening}
    (hon : 0.0 < b.engine.settings.drift) :
    b.draws = b.engine.drift.isDue := by
  unfold draws
  rw [decide_eq_true hon, Bool.true_and]

/-- The goals that the block draws, if it draws any. -/
def goals? (b : Opening) : Option (List Float32) :=
  if b.draws then some (b.engine.openingGoals b.frames) else none

/--
A draw takes a number for each voice that plays notes, in their order, and sends each
of them towards the goal that its number makes.
-/
structure Sends (b : Opening) : Prop where
  numbers : (b.engine.opened b.frames).drift.random
    = Random.next^[b.engine.bank.count] b.engine.drift.random
  voice : ∀ id, id < b.engine.bank.count →
    (b.engine.opened b.frames).bank.voice? id = (b.engine.bank.voice? id).map fun v =>
      { v.grow b.frames with drift := v.drift.schedule (b.engine.drift.drawnGoal id) 1 }

/-- Without a draw no number is taken, and the voices go where they went. -/
structure Rests (b : Opening) : Prop where
  numbers : (b.engine.opened b.frames).drift.random = b.engine.drift.random
  voice : ∀ id, id < b.engine.bank.count →
    (b.engine.opened b.frames).bank.voice? id
      = (b.engine.bank.voice? id).map fun v => v.grow b.frames

end Opening

section Schedules

variable {blocks : List Opening} {b : Opening} {i j k : Nat}

/-- The frames of the blocks before the one with a number: where it begins. -/
def startOf (blocks : List Opening) (k : Nat) : Nat :=
  ((blocks.take k).map Opening.frames).sum

/-- The number of draws among the first blocks. -/
def drawsBefore (blocks : List Opening) (k : Nat) : Nat :=
  (blocks.take k).countP Opening.draws

/-- Block `i` is the last one before block `k` that draws. -/
structure LastDraw (blocks : List Opening) (i k : Nat) : Prop where
  earlier : i < k
  drew : ∃ b, blocks[i]? = some b ∧ b.draws = true
  last : ∀ j b, i < j → j < k → blocks[j]? = some b → b.draws = false

/-- A block begins where the one before it ends. -/
theorem startOf_succ
    (h : blocks[k]? = some b) :
    startOf blocks (k + 1) = startOf blocks k + b.frames := by
  unfold startOf
  rw [List.take_add_one, h]
  simp

/-- Where a block begins depends only on those before it. -/
theorem startOf_congr
    {others : List Opening}
    (h : others.take k = blocks.take k)
    (hi : i ≤ k) :
    startOf others i = startOf blocks i := by
  have htake : others.take i = blocks.take i := by
    have := congrArg (List.take i) h
    rwa [List.take_take, List.take_take, Nat.min_eq_left hi] at this
  unfold startOf
  rw [htake]

/-- There is but one last block that draws. -/
theorem LastDraw.unique
    (hi : LastDraw blocks i k)
    (hj : LastDraw blocks j k) :
    i = j := by
  have hle {i j : Nat} (hi : LastDraw blocks i k) (hj : LastDraw blocks j k) : j ≤ i := by
    by_contra hlater
    obtain ⟨b, hb, hdrew⟩ := hj.drew
    have hnot := hi.last j b (Nat.not_le.1 hlater) hj.earlier hb
    exact Bool.false_ne_true (hnot.symm.trans hdrew)
  exact Nat.le_antisymm (hle hj hi) (hle hi hj)

/-- Which block drew last depends only on the blocks before. -/
theorem LastDraw.congr
    {others : List Opening}
    (h : LastDraw blocks i k)
    (hsame : others.take k = blocks.take k) :
    LastDraw others i k := by
  have hget {j : Nat} (hj : j < k) : others[j]? = blocks[j]? := by
    have := congrArg (fun l => l[j]?) hsame
    simpa [List.getElem?_take, hj] using this
  refine ⟨h.earlier, ?_, fun j b hij hjk hb => ?_⟩
  · rw [hget h.earlier]
    exact h.drew
  · rw [hget hjk] at hb
    exact h.last j b hij hjk hb

/-- A block that does not draw leaves the last draw where it was. -/
theorem LastDraw.succ
    (h : LastDraw blocks i k)
    (hb : blocks[k]? = some b)
    (hrests : b.draws = false) :
    LastDraw blocks i (k + 1) := by
  refine ⟨Nat.lt_succ_of_lt h.earlier, h.drew, fun j c hij hjk hc => ?_⟩
  rcases Nat.lt_succ_iff_lt_or_eq.1 hjk with hlt | rfl
  · exact h.last j c hij hlt hc
  · obtain rfl : b = c := Option.some.inj (hb.symm.trans hc)
    exact hrests

/-- A block that draws is the last one to do so for the next. -/
theorem lastDraw_succ
    (hb : blocks[k]? = some b)
    (hdraws : b.draws = true) :
    LastDraw blocks k (k + 1) :=
  ⟨Nat.lt_succ_self k, ⟨b, hb, hdraws⟩, fun _ _ hkj hj _ => by omega⟩

/-- The clock of the drift after some blocks: it knows how long ago the last draw was. -/
def KeepsTime (d : Drift) (blocks : List Opening) : Prop :=
  (blocks = [] ∧ d.elapsed = none)
    ∨ ∃ i since, LastDraw blocks i blocks.length ∧ d.elapsed = some since
        ∧ startOf blocks i + since = startOf blocks blocks.length

/-- A draw is due in the first block, and when more than an interval has passed. -/
theorem KeepsTime.isDue_iff
    {d : Drift}
    (h : KeepsTime d blocks) :
    d.isDue = true ↔ blocks.length = 0 ∨ ∃ i, LastDraw blocks i blocks.length
      ∧ startOf blocks i + d.interval < startOf blocks blocks.length := by
  unfold Drift.isDue
  rcases h with ⟨rfl, hnone⟩ | ⟨i, since, hlast, hsome, hstart⟩
  · simp [hnone]
  · have hpositive : blocks.length ≠ 0 := Nat.ne_zero_of_lt hlast.earlier
    rw [hsome]
    constructor
    · intro hlonger
      have hlonger : d.interval < since := by simpa using hlonger
      exact .inr ⟨i, hlast, by omega⟩
    · rintro (hzero | ⟨j, hj, hlonger⟩)
      · exact absurd hzero hpositive
      · obtain rfl := hj.unique hlast
        have hlonger : d.interval < since := by omega
        simpa using hlonger

/-- The clock keeps time over a block that draws when it is due. -/
theorem KeepsTime.passed
    {d : Drift} (count : Nat)
    (h : KeepsTime d blocks)
    (hdraws : b.draws = d.isDue) :
    KeepsTime (d.passed count b.frames) (blocks ++ [b]) := by
  have hlength : (blocks ++ [b]).length = blocks.length + 1 := List.length_append
  have hb : (blocks ++ [b])[blocks.length]? = some b := by
    simp
  have htake : (blocks ++ [b]).take blocks.length = blocks.take blocks.length := by
    simp
  have hstart := startOf_succ hb
  refine .inr ?_
  rw [hlength, hstart]
  cases hdue : d.isDue with
  | true =>
      rw [Drift.passed_of_due hdue]
      exact ⟨blocks.length, b.frames, lastDraw_succ hb (hdraws.trans hdue), rfl, rfl⟩
  | false =>
      obtain ⟨rfl, hnone⟩ | ⟨i, since, hlast, hsome, hsum⟩ := h
      · simp [Drift.isDue, hnone] at hdue
      · rw [Drift.passed_of_not_due hdue hsome]
        refine ⟨i, since + b.frames, (hlast.congr htake).succ hb (hdraws.trans hdue), rfl, ?_⟩
        rw [startOf_congr htake (Nat.le_of_lt hlast.earlier), startOf_congr htake le_rfl]
        omega

/--
The first block draws, and after it every block that begins more than an interval after
the beginning of the last block that drew.
-/
def OnSchedule (interval : Nat) (blocks : List Opening) : Prop :=
  ∀ k b, blocks[k]? = some b →
    (b.draws = true ↔ k = 0
      ∨ ∃ i, LastDraw blocks i k ∧ startOf blocks i + interval < startOf blocks k)

/-- More than an interval lies between two draws, and no more than the block before besides. -/
theorem OnSchedule.gap
    {interval : Nat}
    (h : OnSchedule interval blocks)
    (hlast : LastDraw blocks i k)
    (hb : blocks[k]? = some b)
    (hdraws : b.draws = true) :
    ∃ before, blocks[k - 1]? = some before
      ∧ startOf blocks i + interval < startOf blocks k
      ∧ startOf blocks k ≤ startOf blocks i + interval + before.frames := by
  have hlater : startOf blocks i + interval < startOf blocks k := by
    rcases (h k b hb).1 hdraws with rfl | ⟨j, hj, hlater⟩
    · exact absurd hlast.earlier (Nat.not_lt_zero i)
    · rwa [hj.unique hlast] at hlater
  obtain ⟨j, rfl⟩ := Nat.exists_eq_add_one.2 (Nat.zero_lt_of_lt hlast.earlier)
  have hj : j < blocks.length := Nat.lt_of_succ_lt (List.getElem?_eq_some_iff.1 hb).1
  have hbefore : blocks[j]? = some blocks[j] := List.getElem?_eq_getElem hj
  refine ⟨blocks[j], hbefore, hlater, ?_⟩
  rw [startOf_succ hbefore]
  refine Nat.add_le_add_right ?_ _
  rcases Nat.lt_or_eq_of_le (Nat.le_of_lt_succ hlast.earlier) with hij | rfl
  · -- the block before does not draw, so no more than an interval had passed
    have hrests : blocks[j].draws = false := hlast.last j _ hij (Nat.lt_succ_self j) hbefore
    have hlastj : LastDraw blocks i j :=
      ⟨hij, hlast.drew, fun l c hil hlj => hlast.last l c hil (Nat.lt_succ_of_lt hlj)⟩
    by_contra hlonger
    have hdrew := (h j _ hbefore).2 (.inr ⟨i, hlastj, Nat.not_le.1 hlonger⟩)
    exact Bool.false_ne_true (hrests.symm.trans hdrew)
  · exact Nat.le_add_right _ _

end Schedules

namespace Engine

section Openings

variable {e f : Engine} {moments : List Moment} {b : Opening} {k n : Nat}

/-- The block that begins at a moment, if one does. -/
def opening? (e : Engine) : Moment → Option Opening
  | .enter n => some ⟨e, n⟩
  | _ => none

/-- The blocks that begin in a run, one after the other. -/
def openings : Engine → List Moment → List Opening
  | _, [] => []
  | e, m :: moments => (e.opening? m).toList ++ openings (e.after m) moments

theorem openings_append (e : Engine) (before later : List Moment) :
    e.openings (before ++ later) = e.openings before ++ (e.run before).openings later := by
  induction before generalizing e with
  | nil => rfl
  | cons m before ih =>
      rw [List.cons_append, openings, openings, ih, List.append_assoc, run_cons]

theorem openings_concat (e : Engine) (moments : List Moment) (m : Moment) :
    e.openings (moments ++ [m]) = e.openings moments ++ ((e.run moments).opening? m).toList := by
  rw [openings_append]
  simp [openings]

/-- Every block begins after a part of the run in which those before it have begun. -/
theorem exists_prefix_of_opening
    (h : (e.openings moments)[k]? = some b) :
    ∃ early, early <+: moments ∧ b.engine = e.run early
      ∧ e.openings early = (e.openings moments).take k
      ∧ k = (e.openings early).length := by
  induction moments using List.reverseRecOn with
  | nil => simp [openings] at h
  | append_singleton moments m ih =>
      rw [openings_concat] at h ⊢
      by_cases hk : k < (e.openings moments).length
      · rw [List.getElem?_append_left hk] at h
        obtain ⟨early, hearly, hengine, hopenings, hlength⟩ := ih h
        refine ⟨early, hearly.trans (List.prefix_append _ _), hengine, ?_, hlength⟩
        rw [hopenings, List.take_append_of_le_length (Nat.le_of_lt hk)]
      · rw [List.getElem?_append_right (Nat.not_lt.1 hk)] at h
        cases m with
        | enter n =>
            obtain ⟨hlast, rfl⟩ : k - (e.openings moments).length = 0
                ∧ (⟨e.run moments, n⟩ : Opening) = b := by
              simpa [opening?, List.getElem?_singleton] using h
            have hlength : k = (e.openings moments).length := by omega
            refine ⟨moments, List.prefix_append _ _, rfl, ?_, hlength⟩
            rw [hlength, List.take_left]
        | _ => simp [opening?] at h

/-- What a block draws depends on the course. -/
theorem goals?_of_course
    (h : e.course = f.course)
    (n : Nat) :
    Opening.goals? ⟨e, n⟩ = Opening.goals? ⟨f, n⟩ := by
  have hsettings : e.settings = f.settings := congrArg Background.settings h
  have hdrift : e.drift = f.drift := congrArg Background.drift h
  have hcount : e.bank.count = f.bank.count := congrArg Background.count h
  unfold Opening.goals? Opening.draws openingGoals
  dsimp only
  rw [hsettings, hdrift, hcount]

/-- Blocks draw the same goals in runs that differ in events alone. -/
theorem goals?_openings
    (h : e.course = f.course)
    (moments : List Moment) :
    (e.openings moments).map Opening.goals?
      = (f.openings (moments.filter fun m => !m.isEvent)).map Opening.goals? := by
  induction moments generalizing e f with
  | nil => rfl
  | cons m moments ih =>
      cases hevent : m.isEvent with
      | true =>
          have hnone : e.opening? m = none := by
            cases m with
            | enter n => cases hevent
            | _ => rfl
          rw [List.filter_cons_of_neg (by simp [hevent]), openings, hnone]
          exact ih ((course_after_of_isEvent hevent e).trans h)
      | false =>
          rw [List.filter_cons_of_pos (by simp [hevent]), openings, openings, List.map_append,
            List.map_append, ih (course_after h m)]
          congr 1
          cases m with
          | enter n =>
              show [Opening.goals? ⟨e, n⟩] = [Opening.goals? ⟨f, n⟩]
              rw [goals?_of_course h]
          | _ => rfl

end Openings

section Runs

variable {e : Engine} {moments : List Moment} {n : Nat}

/--
A run in which the drift goes on: it stays on, the host does not reset the engine, and
neither the sample rate nor the number of voices changes.
-/
structure Drifting (e : Engine) (moments : List Moment) : Prop where
  unreset : ∀ m ∈ moments, m.resets = false
  on : ∀ early, early <+: moments → 0.0 < (e.run early).settings.drift
  rate : ∀ early, early <+: moments → (e.run early).sampleRate = e.sampleRate
  count : ∀ early, early <+: moments → (e.run early).bank.count = e.bank.count

theorem Drifting.of_prefix
    {early : List Moment}
    (h : e.Drifting moments)
    (hearly : early <+: moments) :
    e.Drifting early where
  unreset := fun m hm => h.unreset m (hearly.subset hm)
  on := fun first hfirst => h.on first (hfirst.trans hearly)
  rate := fun first hfirst => h.rate first (hfirst.trans hearly)
  count := fun first hfirst => h.count first (hfirst.trans hearly)

/-- After every part of a run the clock of the drift and its random source are known. -/
theorem keeps_time
    (hattained : Attained e)
    (hfresh : e.drift.elapsed = none)
    (hdrifting : e.Drifting moments) :
    KeepsTime (e.run moments).drift (e.openings moments)
      ∧ (e.run moments).drift.random
        = Random.next^[e.bank.count * (e.openings moments).countP Opening.draws]
            e.drift.random := by
  induction moments using List.reverseRecOn with
  | nil => exact ⟨.inl ⟨rfl, hfresh⟩, rfl⟩
  | append_singleton moments m ih =>
      have hbefore : moments <+: moments ++ [m] := List.prefix_append moments [m]
      obtain ⟨htime, hrandom⟩ := ih (hdrifting.of_prefix hbefore)
      have hon := hdrifting.on moments hbefore
      have hcount := hdrifting.count moments hbefore
      have hafter : e.run (moments ++ [m]) = (e.run moments).after m := by
        rw [run_append]
        rfl
      rw [openings_concat, hafter]
      cases hopening : (e.run moments).opening? m with
      | none =>
          have hrate : ((e.run moments).after m).sampleRate = (e.run moments).sampleRate := by
            rw [hdrifting.rate moments hbefore, ← hafter]
            exact hdrifting.rate _ (List.prefix_refl _)
          have hsame := drift_after_of_quiet (hattained.run moments).paced hon hrate
            (hdrifting.unreset m (by simp)) fun n heq => by
              rw [heq] at hopening
              cases hopening
          rw [hsame]
          simpa using ⟨htime, hrandom⟩
      | some b =>
          obtain ⟨n, rfl, rfl⟩ : ∃ n, m = .enter n ∧ b = ⟨e.run moments, n⟩ := by
            cases m with
            | enter n => exact ⟨n, rfl, (Option.some.inj hopening).symm⟩
            | _ => cases hopening
          have hdrift : ((e.run moments).after (.enter n)).drift
              = (e.run moments).drift.passed e.bank.count n := by
            have hopened := (drift_opened (e.run moments) n).1
            rw [if_pos hon, hcount] at hopened
            exact hopened
          have hdraws : Opening.draws ⟨e.run moments, n⟩ = (e.run moments).drift.isDue :=
            Opening.draws_of_on hon
          rw [hdrift]
          refine ⟨htime.passed (b := ⟨e.run moments, n⟩) _ hdraws, ?_⟩
          rw [Drift.random_passed, hrandom, ← Function.iterate_add_apply, ← hdraws,
            Option.toList_some, List.countP_append, Nat.mul_add, Nat.add_comm]
          congr 2
          cases hdue : Opening.draws ⟨e.run moments, n⟩ <;> simp [hdue]

/-- The drift begins: settings have just turned it on, or the host has reset the engine. -/
inductive DriftBegins : Engine → Prop
  | enabled
      {e : Engine}
      (h : Reachable e)
      (hoff : ¬ 0.0 < e.settings.drift)
      (hon : 0.0 < e.adoptAwaited.settings.drift) :
      DriftBegins e.adoptAwaited
  | reset
      {e : Engine}
      (h : Reachable e) :
      DriftBegins e.reset

/-- The clock of the drift has not run when the drift begins. -/
theorem DriftBegins.fresh
    (h : DriftBegins e) :
    Attained e ∧ e.drift.elapsed = none := by
  cases h with
  | @enabled e h hoff hon =>
      refine ⟨h.attained.after .adopt, ?_⟩
      have hsound : e.settings.Sound := (wellSet_invariant.of_reachable h).sound
      have hzero : (e.settings.drift == 0.0) = true :=
        (hsound.nonNegative (n := .drift) rfl).beq_zero hoff
      have hstarts : startsDrift e.settings e.adoptAwaited.settings = true := by
        unfold startsDrift
        rw [hzero, decide_eq_true hon, Bool.and_true]
      rw [(drift_adoptAwaited e).1, hstarts, if_pos rfl]
      rfl
  | reset h => exact ⟨h.attained.after .reset, rfl⟩

/-- What a block does to the voices that play notes when it begins. -/
theorem voice?_opened
    {id : Nat}
    (h : id < e.bank.count) :
    (e.opened n).bank.voice? id
      = (e.bank.voice? id).map (openVoice (e.openingGoals n) n id) := by
  rw [opened_eq]
  refine (Bank.getElem?_mapActiveIdx e.bank _ id).trans ?_
  simp only [h, if_true]
  rfl

theorem sends_of_draws
    {b : Opening}
    (h : b.draws = true) :
    b.Sends := by
  obtain ⟨hon, hdue⟩ : 0.0 < b.engine.settings.drift ∧ b.engine.drift.isDue = true := by
    simpa [Opening.draws] using h
  constructor
  · rw [(drift_opened b.engine b.frames).1, if_pos hon, Drift.random_passed, hdue, if_pos rfl]
  · intro id hid
    have hgoal : (b.engine.openingGoals b.frames)[id]?
        = some (b.engine.drift.drawnGoal id) := by
      unfold openingGoals
      rw [if_pos ⟨hon, hdue⟩, Drift.getElem?_goals 0 _ hid, Nat.zero_add]
      rfl
    rw [voice?_opened hid]
    congr 1
    funext v
    have hdrift : (v.grow b.frames).drift = v.drift :=
      congrArg Controls.drift (v.toControls_grow b.frames)
    unfold openVoice
    rw [hgoal, ← hdrift]

theorem rests_of_not_draws
    {b : Opening}
    (h : b.draws = false) :
    b.Rests := by
  have hgoals : b.engine.openingGoals b.frames = [] := by
    refine if_neg ?_
    rintro ⟨hon, hdue⟩
    simp [Opening.draws, hon, hdue] at h
  constructor
  · rw [(drift_opened b.engine b.frames).1]
    split
    case isTrue hon =>
      have hdue : b.engine.drift.isDue = false := by
        simpa [Opening.draws, hon] using h
      rw [Drift.random_passed, hdue]
      rfl
    case isFalse => rfl
  · intro id hid
    rw [voice?_opened hid, hgoals]
    rfl

/-- Each block of a run draws on schedule, and finds the random source where the draws left it. -/
theorem opening_on_schedule
    {k : Nat} {b : Opening}
    (hattained : Attained e)
    (hfresh : e.drift.elapsed = none)
    (hdrifting : e.Drifting moments)
    (hb : (e.openings moments)[k]? = some b) :
    let blocks := e.openings moments
    (b.draws = true ↔ k = 0 ∨ ∃ i, LastDraw blocks i k
          ∧ startOf blocks i + Drift.intervalAt e.sampleRate < startOf blocks k)
      ∧ b.engine.bank.count = e.bank.count
      ∧ b.engine.drift.random
        = Random.next^[e.bank.count * drawsBefore blocks k] e.drift.random := by
  intro blocks
  obtain ⟨early, hearly, hengine, hopenings, hk⟩ := exists_prefix_of_opening hb
  obtain ⟨htime, hrandom⟩ := keeps_time hattained hfresh (hdrifting.of_prefix hearly)
  have hinterval : (e.run early).drift.interval = Drift.intervalAt e.sampleRate := by
    have hpaced : (e.run early).Paced := (hattained.run early).paced
    rw [hpaced, hdrifting.rate early hearly]
  have htake : blocks.take k = (e.openings early).take k := by
    rw [hopenings, List.take_take, Nat.min_self]
  have hlast (i : Nat) : LastDraw (e.openings early) i k ↔ LastDraw blocks i k :=
    ⟨fun h => h.congr htake, fun h => h.congr htake.symm⟩
  have hstart {i : Nat} (hi : i ≤ k) : startOf (e.openings early) i = startOf blocks i :=
    startOf_congr htake.symm hi
  refine ⟨?_, hengine ▸ hdrifting.count early hearly, ?_⟩
  · rw [Opening.draws_of_on (hengine ▸ hdrifting.on early hearly), hengine, htime.isDue_iff,
      ← hk, hinterval]
    refine or_congr_right (exists_congr fun i => ?_)
    rw [hlast]
    refine and_congr_right fun h => ?_
    rw [hstart h.earlier.le, hstart le_rfl]
  · rw [hengine, hrandom, hopenings]
    rfl

/--
From when the drift begins and as long as it goes on, the first block draws goals, and
another block draws just if it begins more than an interval after the beginning of the
last block that drew.  Two draws are therefore more than an interval apart, and by no more
than the block before the later one.  A draw takes one number of the random source for
every voice that plays notes, in their order, and nothing else takes any; and runs that
differ in events alone draw the same goals in the same blocks.
-/
theorem drift_on_schedule
    (hbegins : DriftBegins e)
    (hdrifting : e.Drifting moments) :
    let blocks := e.openings moments
    let interval := Drift.intervalAt e.sampleRate
    OnSchedule interval blocks
      ∧ (∀ i k b, LastDraw blocks i k → blocks[k]? = some b → b.draws = true →
          ∃ before, blocks[k - 1]? = some before
            ∧ startOf blocks i + interval < startOf blocks k
            ∧ startOf blocks k ≤ startOf blocks i + interval + before.frames)
      ∧ (∀ k b, blocks[k]? = some b →
          b.engine.bank.count = e.bank.count
            ∧ b.engine.drift.random
              = Random.next^[e.bank.count * drawsBefore blocks k] e.drift.random
            ∧ (b.draws = true → b.Sends) ∧ (b.draws = false → b.Rests))
      ∧ ∀ others, others.filter (fun m => !m.isEvent) = moments.filter (fun m => !m.isEvent) →
          (e.openings others).map Opening.goals? = blocks.map Opening.goals? := by
  intro blocks interval
  obtain ⟨hattained, hfresh⟩ := hbegins.fresh
  have hblock (k : Nat) (b : Opening) (hb : blocks[k]? = some b) :=
    opening_on_schedule hattained hfresh hdrifting hb
  have hschedule : OnSchedule interval blocks := fun k b hb => (hblock k b hb).1
  refine ⟨hschedule, fun i k b hlast hb hdraws => hschedule.gap hlast hb hdraws, ?_, ?_⟩
  · intro k b hb
    obtain ⟨_, hcount, hrandom⟩ := hblock k b hb
    exact ⟨hcount, hrandom, sends_of_draws, rests_of_not_draws⟩
  · intro others hsame
    rw [goals?_openings rfl, goals?_openings (e := e) (f := e) rfl moments, hsame]

/-- Two voices at one sample a second, whose settings turn the drift on. -/
def slowPair : Engine :=
  (idle 2 1.0 (EventQueue.empty 8) {} .plain).operate (.stage { voices := 2, drift := 0.5 })

/-- Three blocks of eight frames, and a note that begins in the second one. -/
def pluckedOnce : List Operation :=
  [.process 8 (Buffer.silent 0 8), .push (Event.noteOn 3 1 60.0 1.0 9),
    .process 8 (Buffer.silent 0 8), .process 8 (Buffer.silent 0 8)]

/-- With an interval of ten samples the first block draws, and then the third one. -/
theorem schedule_of_slowPair :
    let e := slowPair.adoptAwaited
    let moments := e.momentsOfAll pluckedOnce
    let blocks := e.openings moments
    DriftBegins e ∧ e.Drifting moments ∧ Drift.intervalAt e.sampleRate = 10
      ∧ blocks.map Opening.draws = [true, false, true]
      ∧ LastDraw blocks 0 2
      ∧ (∃ before, blocks[1]? = some before ∧ startOf blocks 0 + 10 < startOf blocks 2
          ∧ startOf blocks 2 ≤ startOf blocks 0 + 10 + before.frames)
      ∧ (e.openings (e.momentsOfAll (pluckedOnce.filter fun op => !op.isPush))).map Opening.goals?
          = blocks.map Opening.goals? := by
  intro e moments blocks
  have hreachable : Reachable slowPair :=
    .operate (.build (show Engine.build 2 1.0 (EventQueue.empty 8) {} .plain = .ok _ by rfl))
      trivial
  have hbegins : DriftBegins e := .enabled hreachable (by decide) (by decide +kernel)
  have hdrifting : e.Drifting moments := by
    have hinits : ∀ early ∈ moments.inits, 0.0 < (e.run early).settings.drift
        ∧ (e.run early).sampleRate = e.sampleRate ∧ (e.run early).bank.count = e.bank.count := by
      decide +kernel
    have hunreset : ∀ m ∈ moments, m.resets = false := by
      decide +kernel
    exact
      { unreset := hunreset
        on := fun early hearly => (hinits early ((List.mem_inits _ _).2 hearly)).1
        rate := fun early hearly => (hinits early ((List.mem_inits _ _).2 hearly)).2.1
        count := fun early hearly => (hinits early ((List.mem_inits _ _).2 hearly)).2.2 }
  have hinterval : Drift.intervalAt e.sampleRate = 10 := by
    decide +kernel
  have hdraws : blocks.map Opening.draws = [true, false, true] := by
    decide +kernel
  have hdraw (j : Nat) : (blocks[j]?).map Opening.draws = [true, false, true][j]? := by
    rw [← List.getElem?_map, hdraws]
  have hlast : LastDraw blocks 0 2 := by
    refine ⟨by decide, Option.map_eq_some_iff.1 (hdraw 0), fun j b hj hj' hb => ?_⟩
    obtain rfl : j = 1 := by omega
    simpa [hb] using hdraw 1
  obtain ⟨third, hthird, hdrew⟩ := Option.map_eq_some_iff.1 (hdraw 2)
  obtain ⟨_, hgaps, _, hevents⟩ := drift_on_schedule hbegins hdrifting
  obtain ⟨before, hbefore, hmore, hbound⟩ := hgaps 0 2 third hlast hthird hdrew
  rw [hinterval] at hmore hbound
  exact ⟨hbegins, hdrifting, hinterval, hdraws, hlast, ⟨before, hbefore, hmore, hbound⟩,
    hevents _ (filter_momentsOfAll e e pluckedOnce).symm⟩

end Runs

end Engine
end Polyphony
