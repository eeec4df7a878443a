import Polyphony.Proofs.Drift
import Polyphony.Proofs.Engine.Lifecycle
import Polyphony.Proofs.Engine.Regulation

/-!
# What goes on without events

The settings of an engine, those that wait for it, the number of its voices, its sample
rate and its drift run their course without regard to events: neither an event that
is performed nor one that comes to wait changes them, or what becomes of them.

**Drift.**  Settings that turn the drift on let it start again, the sample rate decides
how long its interval is, and a block that begins moves it on.  Nothing else touches it.

**Results.**
* `course_after`: the course of an engine after a moment depends on its course before.
* `filter_momentsOfAll`: but for events, a host that pushes none does the same.
* `drift_step`: what a moment can do to the drift.
* `Attained.paced`: the interval of the drift is that of the sample rate.
* `drift_after_of_quiet`: drift that is on stays as it is until a block begins.
-/

namespace Polyphony

namespace Moment

/-- Whether an event is performed, or comes to wait. -/
def isEvent : Moment → Bool
  | .play _ => true
  | .manage (.push _) _ => true
  | _ => false

/-- Whether the host resets the engine. -/
def resets : Moment → Bool
  | .reset => true
  | _ => false

end Moment

/-- Whether an operation pushes an event. -/
def Operation.isPush : Operation → Bool
  | .push _ => true
  | _ => false

namespace Engine

section Courses

variable {e f : Engine} {m : Moment}

/-- What no event changes, whether it is performed or waits. -/
def course (e : Engine) : Background :=
  { e.background with queue := .empty 0 }

theorem course_congr
    (h : f.background = e.background) :
    f.course = e.course :=
  congrArg (fun b : Background => { b with queue := .empty 0 }) h

theorem course_resettled (e : Engine) (next : Settings) :
    (e.resettled next).course =
      { e.course with
        settings := e.admitted next
        count := min (e.admitted next).voices e.course.capacity
        tuningShift := (Tuning.masterOffset e.course.library.log2
          (next.repaired e.course.settings).masterTune).getD e.course.tuningShift
        drift := if startsDrift e.course.settings (e.admitted next) then e.course.drift.restart
          else e.course.drift } := by
  rfl

theorem course_rerated (e : Engine) (rate : Float32) :
    (e.rerated rate).course =
      { e.course with sampleRate := rate, drift := e.course.drift.withSampleRate rate } := by
  simp [course, background, rerated, capacity, Bank.capacity, Bank.withSampleRate, Bank.mapAll]

theorem course_opened (e : Engine) (n : Nat) :
    (e.opened n).course = { e.course with drift := e.openingDrift n } := by
  rw [opened_eq]
  simp [course, background, capacity, Bank.capacity_mapActiveIdx]

theorem course_leave (e : Engine) (n places : Nat) :
    (e.after (.leave n places)).course = { e.course with clock := e.course.clock + n } := by
  have hfinish (f : Engine) :
      (f.finish n).course = { f.course with clock := f.course.clock + n } := by
    simp [course, background, finish, finishAt, dropPending, capacity, Bank.capacity, Bank.mapAll]
  exact (hfinish _).trans
    (congrArg (fun b : Background => { b with clock := b.clock + n })
      (course_congr (background_renderVoices e n places)))

/-- An event that waits does not change the course. -/
theorem course_push (e : Engine) (event : Event) :
    (e.operate (.push event)).course = e.course := by
  obtain ⟨_, -, hpush⟩ := exists_operate_push e event
  rw [hpush]
  rfl

/-- Posted settings come to wait in the mailbox, if there is one and they are accepted. -/
theorem course_post (e : Engine) (s : Settings) :
    (e.operate (.post s)).course
      = { e.course with
          mailbox := e.course.mailbox.map fun box => (box.post s).state } := by
  rw [operate_post]
  rfl

/-- A sample rate that can be one is told to the drift. -/
theorem course_setSampleRate (e : Engine) (rate : Float32) :
    (e.operate (.setSampleRate rate)).course
      = if isSampleRate rate then
          { e.course with sampleRate := rate, drift := e.course.drift.withSampleRate rate }
        else e.course := by
  rw [operate_setSampleRate]
  cases isSampleRate rate with
  | true => exact (course_congr (background_distributeGlides _)).trans (course_rerated e rate)
  | false => rfl

/-- Where the drift goes in a block depends on the course. -/
theorem openingDrift_of_course
    (h : e.course = f.course)
    (n : Nat) :
    e.openingDrift n = f.openingDrift n := by
  have hsettings : e.settings = f.settings := congrArg Background.settings h
  have hdrift : e.drift = f.drift := congrArg Background.drift h
  have hcount : e.bank.count = f.bank.count := congrArg Background.count h
  unfold openingDrift
  rw [hsettings, hdrift, hcount]

theorem course_adopt_eq (e : Engine) (next : Settings) :
    (e.adopt next).course = (e.resettled next).course := by
  rw [adopt_eq]
  split
  · rw [course_congr (background_silence _), course_congr (background_distributeGlides _)]
  · rw [course_congr (background_distributeGlides _)]

/-- Settings are applied as the settings in force and the number of voices allow. -/
theorem course_adopt
    (h : e.course = f.course)
    (next : Settings) :
    (e.adopt next).course = (f.adopt next).course := by
  have hadmitted : e.admitted next = f.admitted next := by
    have hsettings : e.settings = f.settings := congrArg Background.settings h
    have hcapacity : e.capacity = f.capacity := congrArg Background.capacity h
    have hlibrary : e.library = f.library := congrArg Background.library h
    unfold admitted admittedTuning
    rw [hsettings, hcapacity, hlibrary]
  rw [course_adopt_eq, course_adopt_eq, course_resettled, course_resettled, hadmitted, h]

/-- Settings that wait do so for all engines with the same course. -/
theorem course_adoptAwaited
    (h : e.course = f.course) :
    e.adoptAwaited.course = f.adoptAwaited.course := by
  have hawaited : e.awaited? = f.awaited? := by
    have hmailbox : e.mailbox = f.mailbox := congrArg Background.mailbox h
    have hstaged : e.staged = f.staged := congrArg Background.staged h
    unfold awaited?
    rw [hmailbox, hstaged]
  have htaken (g : Engine) : g.taken.course
      = { g.course with mailbox := g.course.mailbox.map Mailbox.collected, staged := none } := by
    rfl
  unfold adoptAwaited
  rw [hawaited]
  cases f.awaited? with
  | none => exact h
  | some next => exact course_adopt (by rw [htaken, htaken, h]) next

/-- What the host does besides comes to the same for engines with the same course. -/
theorem course_operate
    {op : Operation}
    (h : e.course = f.course)
    (hquiet : op.isQuiet = true) :
    (e.operate op).course = (f.operate op).course := by
  cases op with
  | attachMailbox => exact congrArg (fun b : Background => { b with mailbox := some .empty }) h
  | post s => rw [course_post, course_post, h]
  | stage s => exact congrArg (fun b : Background => { b with staged := some s }) h
  | push event => rw [course_push, course_push, h]
  | setSampleRate rate => rw [course_setSampleRate, course_setSampleRate, h]
  | setTemperament t => exact congrArg (fun b : Background => { b with temperament := t }) h
  | setClock time => exact congrArg (fun b : Background => { b with clock := time }) h
  | silence => cases hquiet
  | reset => cases hquiet
  | process frames out => cases hquiet

/-- An event that is performed or comes to wait does not change the course. -/
theorem course_after_of_isEvent
    (hevent : m.isEvent = true)
    (e : Engine) :
    (e.after m).course = e.course := by
  cases m with
  | play event => exact course_congr (background_perform e event)
  | manage op _ =>
      cases op with
      | push event => exact course_push e event
      | _ => cases hevent
  | _ => cases hevent

/-- What decides about the drift is decided without events. -/
theorem course_after
    (h : e.course = f.course)
    (m : Moment) :
    (e.after m).course = (f.after m).course := by
  have hsilence (g : Engine) : g.silence.course = g.course :=
    course_congr (background_silence g)
  cases m with
  | play event => rw [course_after_of_isEvent rfl, course_after_of_isEvent rfl, h]
  | manage op hquiet => exact course_operate h hquiet
  | silence => exact (hsilence e).trans (h.trans (hsilence f).symm)
  | reset =>
      have hreset (g : Engine) :
          g.reset.course = { g.silence.course with drift := g.silence.course.drift.restart } := by
        rfl
      show e.reset.course = f.reset.course
      rw [hreset, hreset, hsilence, hsilence, h]
  | adopt => exact course_adoptAwaited h
  | enter n =>
      show (e.opened n).course = (f.opened n).course
      rw [course_opened, course_opened, openingDrift_of_course h, h]
  | leave n places => rw [course_leave, course_leave, h]

/-- But for events, what a host does comes to the same moments without its pushes. -/
theorem filter_momentsOfAll (e f : Engine) (ops : List Operation) :
    (e.momentsOfAll ops).filter (fun m => !m.isEvent)
      = (f.momentsOfAll (ops.filter fun op => !op.isPush)).filter fun m => !m.isEvent := by
  have hblock (g : Engine) (n places : Nat) :
      (g.blockMoments n places).filter (fun m => !m.isEvent) = [.enter n, .leave n places] := by
    simp [blockMoments, Moment.isEvent, List.filter_eq_nil_iff]
  have hprocess (g : Engine) (frames : Nat) (out : Buffer) :
      (g.momentsOf (.process frames out)).filter (fun m => !m.isEvent)
        = .adopt :: if blockLength frames out = 0 then []
            else [.enter (blockLength frames out), .leave (blockLength frames out) out.voices] := by
    unfold momentsOf
    dsimp only
    rw [List.filter_cons_of_pos (by rfl)]
    split
    · rfl
    · rw [hblock]
  induction ops generalizing e f with
  | nil => rfl
  | cons op ops ih =>
      cases op with
      | push event => exact ih (e.operate (.push event)) f
      | process frames out =>
          show (e.momentsOf (.process frames out) ++ _).filter _
            = (f.momentsOf (.process frames out) ++ _).filter _
          rw [List.filter_append, List.filter_append, hprocess, hprocess, ih]
      | _ =>
          exact congrArg (List.cons _) (ih _ _)

end Courses

section Drifts

variable {e : Engine} {m : Moment}

/-- The interval of the drift is that of the sample rate. -/
def Paced (e : Engine) : Prop :=
  e.drift.interval = Drift.intervalAt e.sampleRate

/-- The host does nothing to the drift, or tells it the sample rate. -/
theorem drift_operate
    {op : Operation}
    (hquiet : op.isQuiet = true) :
    (e.operate op).drift = e.drift ∧ (e.operate op).sampleRate = e.sampleRate
      ∨ (e.operate op).drift = e.drift.withSampleRate (e.operate op).sampleRate := by
  cases op with
  | post s =>
      have hsame := course_post e s
      exact .inl ⟨congrArg Background.drift hsame, congrArg Background.sampleRate hsame⟩
  | push event =>
      have hsame := course_push e event
      exact .inl ⟨congrArg Background.drift hsame, congrArg Background.sampleRate hsame⟩
  | setSampleRate rate =>
      have hrate := course_setSampleRate e rate
      cases hvalid : isSampleRate rate with
      | true =>
          rw [hvalid, if_pos rfl] at hrate
          have hset : (e.operate (.setSampleRate rate)).sampleRate = rate :=
            congrArg Background.sampleRate hrate
          rw [hset]
          exact .inr (congrArg Background.drift hrate)
      | false =>
          rw [hvalid, if_neg Bool.false_ne_true] at hrate
          exact .inl ⟨congrArg Background.drift hrate, congrArg Background.sampleRate hrate⟩
  | silence => cases hquiet
  | reset => cases hquiet
  | process frames out => cases hquiet
  | _ => exact .inl ⟨rfl, rfl⟩

/-- The drift starts again when settings turn it on, and goes on otherwise. -/
theorem drift_adoptAwaited (e : Engine) :
    e.adoptAwaited.drift
        = (if startsDrift e.settings e.adoptAwaited.settings then e.drift.restart else e.drift)
      ∧ e.adoptAwaited.sampleRate = e.sampleRate := by
  unfold adoptAwaited
  cases e.awaited? with
  | none =>
      dsimp only
      rw [startsDrift_self, if_neg Bool.false_ne_true]
      exact ⟨rfl, rfl⟩
  | some next =>
      have hcourse := course_adopt_eq e.taken next
      have hsettings : (e.taken.adopt next).settings = e.taken.admitted next :=
        congrArg Background.settings hcourse
      dsimp only
      rw [hsettings]
      exact ⟨congrArg Background.drift hcourse, congrArg Background.sampleRate hcourse⟩

/-- A block that begins moves the drift on, if there is any. -/
theorem drift_opened (e : Engine) (n : Nat) :
    (e.opened n).drift
        = (if 0.0 < e.settings.drift then e.drift.passed e.bank.count n else e.drift)
      ∧ (e.opened n).sampleRate = e.sampleRate := by
  rw [opened_eq]
  exact ⟨rfl, rfl⟩

/-- What a moment can do to the drift. -/
inductive DriftStep (e : Engine) (m : Moment) : Prop
  /-- It stays as it is. -/
  | stays
      (hdrift : (e.after m).drift = e.drift)
      (hrate : (e.after m).sampleRate = e.sampleRate)
  /-- It is told a sample rate. -/
  | paced
      (hdrift : (e.after m).drift = e.drift.withSampleRate (e.after m).sampleRate)
  /-- It starts again, after a reset or if it was off. -/
  | restarts
      (hdrift : (e.after m).drift = e.drift.restart)
      (hrate : (e.after m).sampleRate = e.sampleRate)
      (hwhy : m.resets = true ∨ ¬ 0.0 < e.settings.drift)
  /-- A block begins, and it moves on. -/
  | passes
      (n : Nat)
      (hm : m = .enter n)
      (hdrift : (e.after m).drift = e.drift.passed e.bank.count n)
      (hrate : (e.after m).sampleRate = e.sampleRate)

theorem drift_step (e : Engine) (m : Moment) :
    e.DriftStep m := by
  have hsilence := background_silence e
  cases m with
  | play event =>
      have hsame := background_perform e event
      exact .stays (congrArg Background.drift hsame) (congrArg Background.sampleRate hsame)
  | manage op hquiet =>
      rcases drift_operate (e := e) hquiet with ⟨hdrift, hrate⟩ | hdrift
      · exact .stays hdrift hrate
      · exact .paced hdrift
  | silence =>
      exact .stays (congrArg Background.drift hsilence) (congrArg Background.sampleRate hsilence)
  | reset => exact .restarts rfl (congrArg Background.sampleRate hsilence) (.inl rfl)
  | adopt =>
      obtain ⟨hdrift, hrate⟩ := drift_adoptAwaited e
      cases hstarts : startsDrift e.settings e.adoptAwaited.settings with
      | true =>
          rw [hstarts, if_pos rfl] at hdrift
          refine .restarts hdrift hrate (.inr fun hon => ?_)
          exact Bool.false_ne_true ((startsDrift_of_on hon _).symm.trans hstarts)
      | false =>
          rw [hstarts, if_neg Bool.false_ne_true] at hdrift
          exact .stays hdrift hrate
  | enter n =>
      obtain ⟨hdrift, hrate⟩ := drift_opened e n
      split at hdrift
      case isTrue => exact .passes n rfl hdrift hrate
      case isFalse => exact .stays hdrift hrate
  | leave n places =>
      have hsame := course_leave e n places
      exact .stays (congrArg Background.drift hsame) (congrArg Background.sampleRate hsame)

/-- The drift is paced as the sample rate asks, from moment to moment. -/
theorem Paced.after
    (h : e.Paced)
    (m : Moment) :
    (e.after m).Paced := by
  unfold Paced at h ⊢
  cases drift_step e m with
  | stays hdrift hrate => rw [hdrift, hrate, h]
  | paced hdrift =>
      rw [hdrift]
      rfl
  | restarts hdrift hrate hwhy =>
      rw [hdrift, hrate, ← h]
      rfl
  | passes n hm hdrift hrate => rw [hdrift, hrate, Drift.interval_passed, h]

theorem Attained.paced
    (h : Attained e) :
    e.Paced := by
  induction h with
  | build hbuild =>
      rw [eq_idle_of_build hbuild]
      rfl
  | after _ m ih => exact ih.after m

/-- While the drift is on, only a block that begins moves it on. -/
theorem drift_after_of_quiet
    (hpaced : e.Paced)
    (hon : 0.0 < e.settings.drift)
    (hrate : (e.after m).sampleRate = e.sampleRate)
    (hresets : m.resets = false)
    (hquiet : ∀ n, m ≠ .enter n) :
    (e.after m).drift = e.drift := by
  cases drift_step e m with
  | stays hdrift => exact hdrift
  | paced hdrift =>
      rw [hdrift, hrate]
      unfold Drift.withSampleRate
      rw [← hpaced]
  | restarts _ _ hwhy =>
      rcases hwhy with hreset | hoff
      · exact absurd (hresets.symm.trans hreset) Bool.false_ne_true
      · exact absurd hon hoff
  | passes n hm => exact absurd hm (hquiet n)

end Drifts

end Engine
end Polyphony
