import Polyphony.Proofs.Engine.Replay
import Polyphony.Proofs.Ramp.Horizon

/-!
# Nothing is heard before it happens

All events of a block are performed before its first sample is rendered, and a
stolen voice falls silent one sample before it attacks.  Nevertheless an event is
not heard in the samples in front of that one, whatever it is, unless it silences
the engine or finds a list of pending changes full.

**Alike up to a sample.**  Two engines within a block are alike up to a sample if
every ramp of a voice has the same changes pending up to there, and the same value
and glide.  Where notes do not have channels of their own, nothing else is heard.

**Results.**
* `le_offset_of_mem_changes`: an event schedules nothing for earlier than the
  sample before it.
* `AlikeUpTo.perform`, `AlikeUpTo.performAll`: events keep alike what comes before
  them.
* `block_causal`: what a block sends out before its last events does not depend on
  them.
-/

namespace Polyphony

namespace Answer

/-- An answer to an event schedules nothing for earlier than the sample before the event. -/
theorem le_offset_of_mem_changes
    {t : Temperament} {tn : Tenancy} {a : Answer} {time : Nat} {role : Role} {c : Change}
    (htime : a.IsAt time)
    (h : c ∈ a.changes t tn role) :
    time ≤ c.offset + 1 := by
  cases hsteal : a.isSteal with
  | false => exact Nat.le_add_right_of_le (offset_of_mem_changes htime hsteal h).ge
  | true =>
      cases a with
      | steal event retrigger =>
          have hattack : time ≤ Voice.attackTime event := by
            rw [← show event.time = time from htime]
            exact Nat.le_max_left _ _
          have hoffset : c.offset = Voice.attackTime event - 1
              ∨ c.offset = Voice.attackTime event := by
            rcases List.mem_append.1 h with hdip | hattacks
            · left
              cases role <;> simp_all [dipChanges]
            · right
              cases role <;> simp_all [attackChanges]
          omega
      | _ => cases hsteal

end Answer

namespace Ramp

section Samples

variable {n : Nat}

/-- A sample of a block is a value of the frames. -/
theorem sampleAt_eq (r : Ramp) (i : Fin n) :
    r.sampleAt i = (next^[i.val + 1] (r.within n)).value := by
  have hn : 0 < n := Nat.zero_lt_of_lt i.isLt
  have hsample := r.getElem?_render i
  rw [render_eq r hn, List.getElem?_toArray, getElem?_samples _ i.isLt] at hsample
  exact (Option.some.inj hsample).symm

/-- A sample depends only on the changes up to it, unless it is the last one. -/
theorem sampleAt_congr
    {r s : Ramp} {k : Nat}
    (h : s.upTo k = r.upTo k)
    {i : Fin n}
    (hi : i.val < k)
    (hk : k < n) :
    s.sampleAt i = r.sampleAt i := by
  have hlocal : s.upTo (i.val + 1) = r.upTo (i.val + 1) :=
    upTo_congr h hi
  rw [sampleAt_eq, sampleAt_eq]
  apply value_iterate_congr
  rw [upTo_within s (by omega), upTo_within r (by omega), hlocal]

/-- Adding a ramp to a value adds its sample, up to the sign of a zero. -/
theorem sameNumber_onto (r : Ramp) (i : Fin n) (x : Float32) :
    Binary32.SameNumber (r.onto i x) (x + r.sampleAt i) := by
  unfold onto
  split
  case isTrue hrests =>
    obtain ⟨hrest, hzero⟩ := (Bool.and_eq_true _ _).mp hrests
    rw [sampleAt_of_isResting hrest]
    exact (Binary32.sameNumber_add_zero x hzero).symm
  case isFalse => exact Binary32.SameNumber.refl _

/-- The sum with a ramp depends only on the changes up to the sample, too. -/
theorem sameNumber_onto_congr
    {r s : Ramp} {k : Nat}
    (h : s.upTo k = r.upTo k)
    {i : Fin n}
    (hi : i.val < k)
    (hk : k < n)
    (x : Float32) :
    Binary32.SameNumber (r.onto i x) (s.onto i x) := by
  have hs := sameNumber_onto s i x
  rw [sampleAt_congr h hi hk] at hs
  exact (sameNumber_onto r i x).trans hs.symm

end Samples

end Ramp

/-- Whether two samples of a stream are the same, sums of ramps up to the sign of a zero. -/
def Stream.SameAt (p : Protocol) (s : Stream) (x y : Float32) : Prop :=
  if p = .conventional ∧ (s = .pitch ∨ s = .aftertouch) then Binary32.SameNumber x y
  else x = y

namespace Stream.SameAt

variable {p : Protocol} {s : Stream} {x y : Float32}

theorem of_eq
    (h : x = y) :
    SameAt p s x y := by
  unfold SameAt
  split
  · exact Or.inl h
  · exact h

theorem of_sameNumber
    (hsum : p = .conventional ∧ (s = .pitch ∨ s = .aftertouch))
    (h : Binary32.SameNumber x y) :
    SameAt p s x y := by
  unfold SameAt
  rw [if_pos hsum]
  exact h

end Stream.SameAt

namespace Engine

section Alike

/-- The ramps of a voice with the changes for the first `k` samples. -/
def ramps (k : Nat) (v : Voice) (role : Role) : Ramp :=
  (v.toControls.get role).upTo k

/-- Two engines within a block that are alike for its first `k` samples. -/
structure AlikeUpTo (k : Nat) (e f : Engine) : Prop where
  settings : f.settings = e.settings
  tuningShift : f.tuningShift = e.tuningShift
  count : f.bank.count = e.bank.count
  voices : f.bank.voices.map (ramps k) = e.bank.voices.map (ramps k)

/-- Whether every voice that plays has places for all changes that an event asks for. -/
def Roomy (e : Engine) (event : Event) : Prop :=
  ∀ p ∈ e.bank.active.zipIdx, ∀ role ∈ Role.all,
    Ramp.HavePlaces (p.1.toControls.get role).pending
      ((e.answer event p.2 p.1.toTenancy).changes e.temperament p.1.toTenancy role)

/-- Several events, each of which finds places for its changes when its turn comes. -/
def RoomyAll : Engine → List Event → Prop
  | _, [] => True
  | e, event :: events => e.Roomy event ∧ RoomyAll (e.perform event) events

instance (e : Engine) (event : Event) : Decidable (e.Roomy event) :=
  inferInstanceAs (Decidable (∀ _ ∈ _, _))

instance decidableRoomyAll : (e : Engine) → (events : List Event) →
    Decidable (e.RoomyAll events)
  | _, [] => isTrue trivial
  | e, event :: events =>
      have := decidableRoomyAll (e.perform event) events
      inferInstanceAs (Decidable (_ ∧ _))

variable {k : Nat} {e f g : Engine} {event : Event}

theorem AlikeUpTo.refl (k : Nat) (e : Engine) :
    AlikeUpTo k e e :=
  ⟨rfl, rfl, rfl, rfl⟩

theorem AlikeUpTo.trans
    (h : AlikeUpTo k e f)
    (h' : AlikeUpTo k f g) :
    AlikeUpTo k e g :=
  ⟨h'.settings.trans h.settings, h'.tuningShift.trans h.tuningShift, h'.count.trans h.count,
    h'.voices.trans h.voices⟩

/-- A voice takes an answer to a later event without a change to its first samples. -/
theorem ramps_take
    {v : Voice} {a : Answer} {time : Nat}
    (hat : a.IsAt time)
    (hlater : k < time)
    {t : Temperament}
    (hplaces : ∀ role, Ramp.HavePlaces (v.toControls.get role).pending
      (a.changes t v.toTenancy role)) :
    ramps k (v.take t a) = ramps k v := by
  funext role
  unfold ramps
  rw [Answer.take_eq, Controls.get_scheduleAll]
  refine Ramp.upTo_scheduleAll (hplaces role) fun c hc => ?_
  have hoffset := Answer.le_offset_of_mem_changes hat hc
  omega

/-- A later event that does not silence leaves the first samples alone. -/
theorem AlikeUpTo.perform
    (hsilent : e.silences event = false)
    (hroomy : e.Roomy event)
    (hlater : k < event.time) :
    AlikeUpTo k e (Engine.perform e event) := by
  have hback := background_perform e event
  refine ⟨congrArg Background.settings hback, congrArg Background.tuningShift hback,
    congrArg Background.count hback, ?_⟩
  apply List.ext_getElem?
  intro id
  rw [voices_perform hsilent, answered, List.getElem?_map, List.getElem?_map,
    Bank.getElem?_mapActiveIdx]
  cases hv : e.bank.voices[id]? with
  | none => rfl
  | some v =>
      by_cases hid : id < e.bank.count
      · have hplaces := hroomy _ (mem_active_zipIdx hid hv)
        simp only [Option.map_some, if_pos hid]
        rw [ramps_take (e.proper_answer event id _).isAt hlater fun role => hplaces role role.mem_all]
      · simp only [Option.map_some, if_neg hid]

/-- The same for several events. -/
theorem AlikeUpTo.performAll
    {events : List Event}
    (hsilent : ∀ x ∈ events, e.silences x = false)
    (hroomy : e.RoomyAll events)
    (hlater : ∀ x ∈ events, k < x.time) :
    AlikeUpTo k e (events.foldl Engine.perform e) := by
  induction events generalizing e with
  | nil => exact AlikeUpTo.refl k e
  | cons x events ih =>
      have hstep := AlikeUpTo.perform (hsilent x List.mem_cons_self) hroomy.1
        (hlater x List.mem_cons_self)
      have hsilent' : ∀ y ∈ events, (Engine.perform e x).silences y = false := by
        intro y hy
        rw [silences_congr hstep.settings]
        exact hsilent y (List.mem_cons_of_mem _ hy)
      exact hstep.trans (ih hsilent' hroomy.2 fun y hy => hlater y (List.mem_cons_of_mem _ hy))

end Alike

section Samples

variable {k n : Nat} {e f : Engine} {v w : Voice} {i : Fin n}

/-- Voices with the same ramps up to a sample have the same pitch there. -/
theorem pitchSample_sameAt
    (h : AlikeUpTo k e f)
    (hprotocol : e.settings.protocol ≠ .expressive)
    (hi : i.val < k)
    (hk : k < n)
    (hramps : ramps k w = ramps k v) :
    Stream.pitch.SameAt e.settings.protocol (e.pitchSample v i) (f.pitchSample w i) := by
  have hsample (role : Role) :
      (w.toControls.get role).sampleAt i = (v.toControls.get role).sampleAt i :=
    Ramp.sampleAt_congr (congrFun hramps role) hi hk
  have hpitch : w.pitch.sampleAt i = v.pitch.sampleAt i := hsample .pitch
  have hdrift : w.drift.sampleAt i = v.drift.sampleAt i := hsample .drift
  cases hp : e.settings.protocol with
  | conventional =>
      have hbend : w.pitchBend.upTo k = v.pitchBend.upTo k := congrFun hramps .pitchBend
      have hbent : Binary32.SameNumber (e.bentSample v i) (f.bentSample w i) := by
        unfold bentSample
        rw [h.settings, hp, hpitch]
        exact Ramp.sameNumber_onto_congr hbend hi hk _
      -- drift and tuning add the same to both
      refine Stream.SameAt.of_sameNumber ⟨rfl, Or.inl rfl⟩ ?_
      have hdrifted : Binary32.SameNumber (e.driftedSample v i) (f.driftedSample w i) := by
        unfold driftedSample
        rw [h.settings, hdrift]
        split
        · exact hbent.add_right _
        · exact hbent
      unfold pitchSample
      rw [h.tuningShift]
      split
      · exact hdrifted
      · exact hdrifted.add_right _
  | expressive => exact absurd hp hprotocol
  | continuousTouch =>
      apply Stream.SameAt.of_eq
      unfold pitchSample driftedSample bentSample
      rw [h.tuningShift, h.settings, hp, hpitch, hdrift]

theorem aftertouchSample_sameAt
    (h : AlikeUpTo k e f)
    (hprotocol : e.settings.protocol ≠ .expressive)
    (hi : i.val < k)
    (hk : k < n)
    (hramps : ramps k w = ramps k v) :
    Stream.aftertouch.SameAt e.settings.protocol (e.aftertouchSample v i)
      (f.aftertouchSample w i) := by
  have hnote : w.notePressure.sampleAt i = v.notePressure.sampleAt i :=
    Ramp.sampleAt_congr (congrFun hramps .notePressure) hi hk
  have hamp : w.amp.sampleAt i = v.amp.sampleAt i :=
    Ramp.sampleAt_congr (congrFun hramps .amp) hi hk
  have hchannel : w.channelPressure.upTo k = v.channelPressure.upTo k :=
    congrFun hramps .channelPressure
  unfold aftertouchSample
  rw [h.settings]
  cases hp : e.settings.protocol with
  | conventional =>
      refine Stream.SameAt.of_sameNumber ⟨rfl, Or.inr rfl⟩ ?_
      rw [hnote]
      exact Ramp.sameNumber_onto_congr hchannel hi hk _
  | expressive => exact absurd hp hprotocol
  | continuousTouch => exact Stream.SameAt.of_eq hamp.symm

/-- A modulation is that of the voice alone. -/
theorem modSample_eq
    (hprotocol : e.settings.protocol ≠ .expressive)
    (i : Fin n) (own shared : Ramp) (stretched : Bool) :
    e.modSample i own shared stretched = own.sampleAt i := by
  unfold modSample
  cases hp : e.settings.protocol with
  | conventional => rfl
  | expressive => exact absurd hp hprotocol
  | continuousTouch => rfl

/-- Voices with the same ramps up to a sample are the same there in all streams. -/
theorem composed_sameAt
    (h : AlikeUpTo k e f)
    (hprotocol : e.settings.protocol ≠ .expressive)
    (hi : i.val < k)
    (hk : k < n)
    (hramps : ramps k w = ramps k v)
    (id : Nat) (s : Stream) :
    s.SameAt e.settings.protocol (e.composed v i id s) (f.composed w i id s) := by
  have hprotocol' : f.settings.protocol ≠ .expressive := by
    rw [h.settings]
    exact hprotocol
  have hsample (role : Role) :
      (v.toControls.get role).sampleAt i = (w.toControls.get role).sampleAt i :=
    (Ramp.sampleAt_congr (congrFun hramps role) hi hk).symm
  cases s with
  | pitch => exact pitchSample_sameAt h hprotocol hi hk hramps
  | gate => exact Stream.SameAt.of_eq (hsample .gate)
  | velocity => exact Stream.SameAt.of_eq (hsample .velocity)
  | voice => exact Stream.SameAt.of_eq rfl
  | aftertouch => exact aftertouchSample_sameAt h hprotocol hi hk hramps
  | modA =>
      apply Stream.SameAt.of_eq
      exact (modSample_eq hprotocol _ _ _ _).trans
        ((hsample .mod1).trans (modSample_eq hprotocol' _ _ _ _).symm)
  | modB =>
      apply Stream.SameAt.of_eq
      exact (modSample_eq hprotocol _ _ _ _).trans
        ((hsample .mod2).trans (modSample_eq hprotocol' _ _ _ _).symm)
  | modC =>
      apply Stream.SameAt.of_eq
      exact (modSample_eq hprotocol _ _ _ _).trans
        ((hsample .mod3).trans (modSample_eq hprotocol' _ _ _ _).symm)

/-- Engines that are alike up to a sample send out the same there. -/
theorem AlikeUpTo.streamSample
    (h : AlikeUpTo k e f)
    (hprotocol : e.settings.protocol ≠ .expressive)
    (hi : i.val < k)
    (hk : k < n)
    (id : Nat) (s : Stream) :
    s.SameAt e.settings.protocol (Engine.streamSample e i id s) (Engine.streamSample f i id s) := by
  have hvoice := congrArg (fun ramps => ramps[id]?) h.voices
  simp only [List.getElem?_map] at hvoice
  unfold Engine.streamSample Bank.active
  rw [List.getElem?_take, List.getElem?_take, h.count]
  by_cases hcount : id < e.bank.count
  · rw [if_pos hcount, if_pos hcount]
    cases hv : e.bank.voices[id]? with
    | none =>
        rw [hv, Option.map_none, Option.map_eq_none_iff] at hvoice
        rw [hvoice]
        exact Stream.SameAt.of_eq rfl
    | some v =>
        rw [hv, Option.map_some, Option.map_eq_some_iff] at hvoice
        obtain ⟨w, hw, hramps⟩ := hvoice
        rw [hw]
        exact composed_sameAt h hprotocol hi hk hramps id s
  · rw [if_neg hcount, if_neg hcount]
    exact Stream.SameAt.of_eq rfl

end Samples

section Blocks

variable {e : Engine} {q q' : EventQueue} {early late : List Event}

/-- The last events of a block keep alike what comes before them. -/
theorem alikeUpTo_amid
    {n k : Nat}
    (hlate : ∀ x ∈ late, e.clock + k < x.time)
    (hsilent : ∀ x ∈ late, e.adoptAwaited.silences x = false)
    (hroomy : (e.amid n early).RoomyAll (late.map (localTo e.clock))) :
    AlikeUpTo k (e.amid n early) (e.amid n (early ++ late)) := by
  rw [amid_append]
  refine AlikeUpTo.performAll ?_ hroomy ?_
  · intro y hy
    obtain ⟨x, hx, rfl⟩ := List.mem_map.1 hy
    rw [silences_amid]
    exact hsilent x hx
  · intro y hy
    obtain ⟨x, hx, rfl⟩ := List.mem_map.1 hy
    have htime := hlate x hx
    show k < x.time - e.clock
    omega

/--
Nothing is heard before it happens.  Where notes do not have channels of their own,
let a block be rendered twice, once with further events behind the others that are
due.  If these are at a sample `t` of the block or later, do not silence the engine
and find places for all changes that they schedule, both blocks send out the same at
every sample before `t - 1`, in every stream of every voice.
-/
theorem block_causal
    (frames : Nat)
    (out : Buffer)
    (hprotocol : e.adoptAwaited.settings.protocol ≠ .expressive)
    (halone : q.dueBefore (e.clock + blockLength frames out) = early)
    (hboth : q'.dueBefore (e.clock + blockLength frames out) = early ++ late)
    {t : Nat}
    (ht : 1 ≤ t)
    (hlate : ∀ x ∈ late, e.clock + t ≤ x.time)
    (hsilent : ∀ x ∈ late, e.adoptAwaited.silences x = false)
    (hroomy : (e.amid (blockLength frames out) early).RoomyAll (late.map (localTo e.clock)))
    {id : Nat}
    (hid : id < out.voices)
    (s : Stream)
    (j : Fin (blockLength frames out))
    (hj : j.val < t - 1) :
    ∃ x y,
      ((e.withQueue q).process frames out).2.sample id s j = some x
        ∧ ((e.withQueue q').process frames out).2.sample id s j = some y
        ∧ s.SameAt e.adoptAwaited.settings.protocol x y := by
  refine ⟨_, _, sample_withQueue hid j s halone, sample_withQueue hid j s hboth, ?_⟩
  cases hempty : late with
  | nil =>
      rw [List.append_nil]
      exact Stream.SameAt.of_eq rfl
  | cons x rest =>
      -- a late event that is due is within the block, so `t - 1` is before its end
      have hwithin : t - 1 < blockLength frames out := by
        have hdue : x.time < e.clock + blockLength frames out :=
          time_lt_of_due hboth (by simp [hempty])
        have hx := hlate x (by simp [hempty])
        omega
      have hbehind : ∀ x ∈ late, e.clock + (t - 1) < x.time := by
        intro x hx
        have htime := hlate x hx
        omega
      rw [← hempty, ← settings_amid e (blockLength frames out) early]
      rw [← settings_amid e (blockLength frames out) early] at hprotocol
      exact (alikeUpTo_amid hbehind hsilent hroomy).streamSample hprotocol hj hwithin id s

/-- Another key that goes down later. -/
def takeover : List Event :=
  [Event.noteOn 4 1 64.0 0.5 4]

/--
A note that steals the voice at sample 4 is not heard up to sample 2.  At sample 3
the gate falls for it.
-/
theorem causal_takeover :
    soloist.adoptAwaited.settings.protocol ≠ .expressive
      ∧ (queueOf pressedAndBent).dueBefore (soloist.clock + 8) = pressedAndBent
      ∧ (queueOf (pressedAndBent ++ takeover)).dueBefore (soloist.clock + 8)
          = pressedAndBent ++ takeover
      ∧ (∀ x ∈ takeover, soloist.clock + 4 ≤ x.time)
      ∧ (∀ x ∈ takeover, soloist.adoptAwaited.silences x = false)
      ∧ (soloist.amid 8 pressedAndBent).RoomyAll (takeover.map (localTo soloist.clock))
      ∧ (∀ s, ∃ x y,
          ((soloist.withQueue (queueOf pressedAndBent)).process 8
            (Buffer.silent 1 8)).2.sample 0 s 2 = some x
          ∧ ((soloist.withQueue (queueOf (pressedAndBent ++ takeover))).process 8
            (Buffer.silent 1 8)).2.sample 0 s 2 = some y
          ∧ s.SameAt .conventional x y)
      ∧ ((soloist.withQueue (queueOf pressedAndBent)).process 8
          (Buffer.silent 1 8)).2.sample 0 .gate 3 = some 1.0
      ∧ ((soloist.withQueue (queueOf (pressedAndBent ++ takeover))).process 8
          (Buffer.silent 1 8)).2.sample 0 .gate 3 = some 0.0 := by
  have hprotocol : soloist.adoptAwaited.settings.protocol = .conventional := by
    decide +kernel
  have hne : soloist.adoptAwaited.settings.protocol ≠ .expressive := by
    rw [hprotocol]
    decide
  have halone : (queueOf pressedAndBent).dueBefore (soloist.clock + 8) = pressedAndBent := by
    decide +kernel
  have hboth : (queueOf (pressedAndBent ++ takeover)).dueBefore (soloist.clock + 8)
      = pressedAndBent ++ takeover := by
    decide +kernel
  have hlate : ∀ x ∈ takeover, soloist.clock + 4 ≤ x.time := by
    decide +kernel
  have hsilent : ∀ x ∈ takeover, soloist.adoptAwaited.silences x = false := by
    decide +kernel
  have hroomy :
      (soloist.amid 8 pressedAndBent).RoomyAll (takeover.map (localTo soloist.clock)) := by
    decide +kernel
  refine ⟨hne, halone, hboth, hlate, hsilent, hroomy, ?_, by decide +kernel, by decide +kernel⟩
  intro s
  have hcausal := block_causal 8 (Buffer.silent 1 8) hne halone hboth
    (show 1 ≤ 4 by decide) hlate hsilent hroomy (show 0 < 1 by decide) s ⟨2, by decide⟩ (by decide)
  rw [hprotocol] at hcausal
  exact hcausal

end Blocks

end Engine
end Polyphony
