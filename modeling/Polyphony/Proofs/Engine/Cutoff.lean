import Polyphony.Proofs.Engine.Outline
import Polyphony.Proofs.Engine.Replay

/-!
# Silence in the middle of a block

An event that silences the engine is performed, like all others, before the first
sample of its block is rendered.  It drops what the events in front of it have
scheduled, and it has no time of its own: gates, velocities and pressures are zero
from the first sample on, and pitches, bends and modulations go on as if nothing had
happened in the block.

**Hushed.**  What silence leaves of a ramp is its state without pending changes, or
zero.  No event changes that.

**Results.**
* `hushed_amid`: nothing that happens in a block changes what silence would leave.
* `composed_hushed`: the samples of a voice after silence.
* `silenced_block`: the samples of a block that ends in silence, and where its ramps
  are headed, with the silence and without it.
-/

namespace Polyphony

/-- Whether silence brings a stream to zero. -/
def Stream.isSilenced : Stream → Bool
  | .gate => true
  | .velocity => true
  | .aftertouch => true
  | _ => false

namespace Ramp

/-- A ramp that has dropped to zero adds nothing. -/
theorem onto_toZero (r : Ramp) {n : Nat} (i : Fin n) (x : Float32) :
    r.toZero.onto i x = x := by
  have hzero : ((0.0 : Float32) == 0.0) = true := by
    decide +kernel
  exact if_pos hzero

end Ramp

namespace Controls

theorem get_mute (c : Controls) (role : Role) :
    c.mute.get role = if role.isMuted then (c.get role).toZero else c.get role := by
  cases role <;> rfl

theorem get_dropPending (c : Controls) (role : Role) :
    c.dropPending.get role = (c.get role).dropPending :=
  get_map Ramp.dropPending c role

/-- What silence leaves of the ramps. -/
def hushed (c : Controls) : Controls :=
  c.dropPending.mute

theorem get_hushed (c : Controls) (role : Role) :
    c.hushed.get role
      = if role.isMuted then (c.get role).toZero else (c.get role).dropPending := by
  unfold hushed
  rw [get_mute, get_dropPending]
  split <;> rfl

/-- Scheduling makes no difference to what silence leaves. -/
theorem hushed_scheduleAll (c : Controls) (changes : Role → List Change) :
    (c.scheduleAll changes).hushed = c.hushed := by
  apply ext_get
  intro role
  rw [get_hushed, get_hushed, get_scheduleAll]
  split <;> rfl

/-- What silence keeps of a ramp is where it is headed. -/
theorem target_of_hushed
    {c d : Controls} {role : Role}
    (h : d.hushed = c.hushed)
    (hkept : role.isMuted = false) :
    (d.get role).target = (c.get role).target := by
  have htarget := congrArg (fun c : Controls => (c.get role).target) h
  simp only [get_hushed, hkept, Bool.false_eq_true, if_false] at htarget
  exact htarget

/-- Nothing is pending in silence. -/
theorem goal_hushed
    {role : Role}
    (c : Controls)
    (hkept : role.isMuted = false) :
    (c.hushed.get role).goal = (c.get role).target := by
  rw [get_hushed, hkept, if_neg Bool.false_ne_true]
  exact Ramp.goal_of_pending_nil rfl

theorem hushed_hushed (c : Controls) :
    c.hushed.hushed = c.hushed := by
  apply ext_get
  intro role
  rw [get_hushed, get_hushed]
  split <;> rfl

end Controls

namespace Engine

section Hushed

variable {e f : Engine}

/-- What silence would leave of the ramps of the voices. -/
def hushed (e : Engine) : List Controls :=
  e.bank.voices.map fun v => v.toControls.hushed

theorem hushed_silence (e : Engine) :
    e.silence.hushed = e.hushed := by
  show (e.bank.voices.map _).map _ = e.bank.voices.map _
  rw [List.map_map]
  exact List.map_congr_left fun v _ => Controls.hushed_hushed v.toControls

/-- No event changes what silence would leave. -/
theorem hushed_perform (e : Engine) (event : Event) :
    (e.perform event).hushed = e.hushed := by
  cases hsilent : e.silences event with
  | true =>
      rw [perform_of_silences hsilent]
      exact hushed_silence e
  | false =>
      unfold hushed
      rw [voices_perform hsilent]
      refine map_mapIdx_of_eq (fun id v => ?_) e.bank.voices
      split
      · dsimp only
        rw [Answer.take_eq]
        exact Controls.hushed_scheduleAll _ _
      · rfl

theorem hushed_openVoice (goals : List Float32) (n id : Nat) (v : Voice) :
    (openVoice goals n id v).toControls.hushed = v.toControls.hushed := by
  have hgrow : (v.grow n).toControls = v.toControls := v.toControls_grow n
  unfold openVoice
  split
  · rw [← hgrow]
    apply Controls.ext_get
    intro role
    rw [Controls.get_hushed, Controls.get_hushed]
    cases role <;> rfl
  · rw [hgrow]

/-- Nothing that happens in a block changes what silence would leave. -/
theorem hushed_amid (e : Engine) (n : Nat) (events : List Event) :
    (e.amid n events).hushed = e.adoptAwaited.hushed := by
  have hopened : (e.adoptAwaited.opened n).hushed = e.adoptAwaited.hushed := by
    rw [opened_eq]
    refine map_mapIdx_of_eq (fun id v => ?_) e.adoptAwaited.bank.voices
    split
    · exact hushed_openVoice _ n id v
    · rfl
  have hperformed (events : List Event) (k : Engine) :
      (events.foldl perform k).hushed = k.hushed := by
    induction events generalizing k with
    | nil => rfl
    | cons event events ih => exact (ih (k.perform event)).trans (hushed_perform k event)
  exact (hperformed _ _).trans hopened

/-- The voices within a block, and what silence would leave of them. -/
theorem exists_voice_amid
    (n : Nat) (events : List Event)
    {id : Nat} {v : Voice}
    (hv : e.adoptAwaited.bank.voices[id]? = some v) :
    ∃ u, (e.amid n events).bank.voices[id]? = some u
      ∧ u.toControls.hushed = v.toControls.hushed := by
  have hhushed := congrArg (fun controls => controls[id]?) (hushed_amid e n events)
  unfold hushed at hhushed
  simp only [List.getElem?_map, hv, Option.map_some] at hhushed
  exact Option.map_eq_some_iff.1 hhushed

/-- An event that silences leaves of every voice what silence leaves. -/
theorem exists_voice_amid_silenced
    (n : Nat) (early : List Event) {x : Event}
    (hsilences : e.adoptAwaited.silences x = true)
    {id : Nat} {v : Voice}
    (hv : e.adoptAwaited.bank.voices[id]? = some v) :
    ∃ w, (e.amid n (early ++ [x])).bank.voices[id]? = some w
      ∧ w.toControls = v.toControls.hushed := by
  have hsilences' : (e.amid n early).silences (localTo e.clock x) = true := by
    rw [silences_amid]
    exact hsilences
  obtain ⟨u, hu, hhushed⟩ := exists_voice_amid n early hv
  refine ⟨u.vacate.dropPending.mute, ?_, hhushed⟩
  rw [amid_append, List.map_singleton, List.foldl_cons, List.foldl_nil,
    perform_of_silences hsilences']
  show ((e.amid n early).bank.voices.map fun v => v.vacate.dropPending.mute)[id]? = _
  rw [List.getElem?_map, hu]
  rfl

end Hushed

section Samples

variable {e f : Engine} {n : Nat}

/-- Where all notes share one bend, the samples of a voice need nothing but settings and tuning. -/
theorem composed_congr
    (hprotocol : e.settings.protocol = .conventional)
    (hsettings : f.settings = e.settings)
    (htuning : f.tuningShift = e.tuningShift)
    (v : Voice) (i : Fin n) (id : Nat) (s : Stream) :
    f.composed v i id s = e.composed v i id s := by
  cases s <;>
    simp only [composed, pitchSample, driftedSample, bentSample, aftertouchSample, modSample,
      hsettings, htuning, hprotocol]

/-- Where all notes share one bend, a hushed voice only has lost its notes and pressures. -/
theorem composed_hushed
    {v w : Voice}
    (hprotocol : e.settings.protocol = .conventional)
    (hnone : v.toControls.NonePending)
    (hcontrols : w.toControls = v.toControls.hushed)
    (i : Fin n) (id : Nat) (s : Stream) :
    e.composed w i id s = if s.isSilenced then 0.0 else e.composed v i id s := by
  have hkept (role : Role) (hrole : role.isMuted = false) :
      w.toControls.get role = v.toControls.get role := by
    rw [hcontrols, Controls.get_hushed, hrole, if_neg Bool.false_ne_true,
      Ramp.dropPending_of_nil (hnone role)]
  have hmuted (role : Role) (hrole : role.isMuted = true) :
      w.toControls.get role = (v.toControls.get role).toZero := by
    rw [hcontrols, Controls.get_hushed, hrole, if_pos rfl]
  have hzero (r : Ramp) : r.toZero.sampleAt i = 0.0 :=
    Ramp.sampleAt_of_isResting rfl i
  have hpitch : w.pitch = v.pitch := hkept .pitch rfl
  have hbend : w.pitchBend = v.pitchBend := hkept .pitchBend rfl
  have hdrift : w.drift = v.drift := hkept .drift rfl
  have hmod1 : w.mod1 = v.mod1 := hkept .mod1 rfl
  have hmod2 : w.mod2 = v.mod2 := hkept .mod2 rfl
  have hmod3 : w.mod3 = v.mod3 := hkept .mod3 rfl
  have hgate : w.gate = v.gate.toZero := hmuted .gate rfl
  have hvelocity : w.velocity = v.velocity.toZero := hmuted .velocity rfl
  have hnote : w.notePressure = v.notePressure.toZero := hmuted .notePressure rfl
  have hchannel : w.channelPressure = v.channelPressure.toZero := hmuted .channelPressure rfl
  cases s with
  | pitch =>
      show e.pitchSample w i = e.pitchSample v i
      unfold pitchSample driftedSample bentSample
      rw [hprotocol, hpitch, hbend, hdrift]
  | gate => exact (congrArg (·.sampleAt i) hgate).trans (hzero _)
  | velocity => exact (congrArg (·.sampleAt i) hvelocity).trans (hzero _)
  | voice => rfl
  | aftertouch =>
      show e.aftertouchSample w i = 0.0
      unfold aftertouchSample
      rw [hprotocol, hnote, hchannel]
      show v.channelPressure.toZero.onto i (v.notePressure.toZero.sampleAt i) = 0.0
      rw [Ramp.onto_toZero]
      exact hzero v.notePressure
  | modA => exact congrArg (fun r => e.modSample i r e.main.mod1 false) hmod1
  | modB => exact congrArg (fun r => e.modSample i r e.main.mod2 _) hmod2
  | modC => exact congrArg (fun r => e.modSample i r e.main.mod3 true) hmod3

end Samples

section Blocks

variable {e : Engine} {q q' : EventQueue} {early : List Event} {x : Event}

/-- The samples of a block that ends in silence are those of the block before it, muted. -/
theorem streamSample_amid_silenced
    (h : Reachable e)
    (hprotocol : e.adoptAwaited.settings.protocol = .conventional)
    (hsilences : e.adoptAwaited.silences x = true)
    {id : Nat} {v : Voice}
    (hid : id < e.adoptAwaited.bank.count)
    (hv : e.adoptAwaited.bank.voices[id]? = some v)
    {n : Nat} (i : Fin n) (s : Stream) :
    (e.amid n (early ++ [x])).streamSample i id s
      = if s.isSilenced then 0.0 else e.adoptAwaited.composed v i id s := by
  obtain ⟨w, hw, hcontrols⟩ := exists_voice_amid_silenced n early hsilences hv
  have hnone : v.toControls.NonePending :=
    (atRest_of_reachable h).adoptAwaited.voices v (List.mem_of_getElem? hv)
  have hcount : id < (e.amid n (early ++ [x])).bank.count := by
    rw [count_amid]
    exact hid
  rw [streamSample_of_voice hcount hw,
    composed_congr hprotocol (settings_amid e n _) (tuningShift_amid e n _)]
  exact composed_hushed hprotocol hnone hcontrols i id s

/--
Silence has no time within its block.  Where all notes share one bend, let the last
event of a block silence the engine, whatever its own time is.  Then all samples of
gate, velocity and aftertouch are zero, and all others are those that the voice would
have sent out if nothing at all had happened in the block.  Without that event, they
are those of the events before it.  After the block, what silence keeps is headed
where it was headed before the block, and not for the goals of those events.
-/
theorem silenced_block
    (frames : Nat)
    (out : Buffer)
    (h : Reachable e)
    (hprotocol : e.adoptAwaited.settings.protocol = .conventional)
    (hn : 0 < blockLength frames out)
    (halone : q.dueBefore (e.clock + blockLength frames out) = early)
    (hboth : q'.dueBefore (e.clock + blockLength frames out) = early ++ [x])
    (hsilences : e.adoptAwaited.silences x = true)
    {id : Nat} {v : Voice}
    (hid : id < e.adoptAwaited.bank.count)
    (hv : e.adoptAwaited.bank.voices[id]? = some v) :
    (id < out.voices → ∀ s (j : Fin (blockLength frames out)),
        ((e.withQueue q').process frames out).2.sample id s j
            = some (if s.isSilenced then 0.0 else e.adoptAwaited.composed v j id s)
          ∧ ((e.withQueue q).process frames out).2.sample id s j
            = some ((e.amid (blockLength frames out) early).streamSample j id s))
      ∧ ∃ u w w',
        (e.amid (blockLength frames out) early).bank.voices[id]? = some u
          ∧ ((e.withQueue q).process frames out).1.bank.voices[id]? = some w
          ∧ ((e.withQueue q').process frames out).1.bank.voices[id]? = some w'
          ∧ ∀ role, role.isMuted = false →
            (w'.toControls.get role).target = (v.toControls.get role).target
              ∧ (w.toControls.get role).target
                = if id < out.voices ∧ e.adoptAwaited.settings.renders role = true then
                    (u.toControls.get role).goal
                  else (v.toControls.get role).target := by
  refine ⟨fun hplace s j => ⟨?_, sample_withQueue hplace j s halone⟩, ?_⟩
  · rw [sample_withQueue hplace j s hboth,
      streamSample_amid_silenced h hprotocol hsilences hid hv]
  · obtain ⟨u, hu, hhushed⟩ := exists_voice_amid (blockLength frames out) early hv
    obtain ⟨u', hu', hcontrols⟩ :=
      exists_voice_amid_silenced (blockLength frames out) early hsilences hv
    obtain ⟨w, hw, htarget⟩ := target_withQueue hn halone hu
    obtain ⟨w', hw', htarget'⟩ := target_withQueue hn hboth hu'
    refine ⟨u, w, w', hu, hw, hw', fun role hkept => ⟨?_, ?_⟩⟩
    · rw [htarget' role, hcontrols, Controls.goal_hushed _ hkept,
        Controls.target_of_hushed (Controls.hushed_hushed _) hkept, ite_self]
    · rw [htarget role, Controls.target_of_hushed hhushed hkept]
      simp only [Nat.lt_min, hid, true_and]

/-- All sound off at a sample in the middle of a block. -/
def soundOff : Event :=
  Event.controller 0 1 allSoundOff 0.0 4

/--
A key goes down at the first sample of a block and the wheel moves at the second one.
Without silence at the fifth one, the gate is open from the first sample on and the
pitch is that of the key; with it, the gate stays closed in front of it as well, and
neither the pitch nor the bend of the voice moves.
-/
theorem silenced_before_its_time :
    Reachable soloist
      ∧ soloist.adoptAwaited.settings.protocol = .conventional
      ∧ 0 < blockLength 8 (Buffer.silent 1 8)
      ∧ (queueOf pressedAndBent).dueBefore (soloist.clock + 8) = pressedAndBent
      ∧ (queueOf (pressedAndBent ++ [soundOff])).dueBefore (soloist.clock + 8)
          = pressedAndBent ++ [soundOff]
      ∧ soloist.adoptAwaited.silences soundOff = true
      ∧ 0 < soloist.adoptAwaited.bank.count
      ∧ ((soloist.withQueue (queueOf (pressedAndBent ++ [soundOff]))).process 8
          (Buffer.silent 1 8)).2.sample 0 .gate 0 = some 0.0
      ∧ ((soloist.withQueue (queueOf pressedAndBent)).process 8
          (Buffer.silent 1 8)).2.sample 0 .gate 0 = some 1.0
      ∧ ∃ v w w',
        soloist.adoptAwaited.bank.voices[0]? = some v
          ∧ ((soloist.withQueue (queueOf pressedAndBent)).process 8
            (Buffer.silent 1 8)).1.bank.voices[0]? = some w
          ∧ ((soloist.withQueue (queueOf (pressedAndBent ++ [soundOff]))).process 8
            (Buffer.silent 1 8)).1.bank.voices[0]? = some w'
          ∧ w'.pitch.target = v.pitch.target
          ∧ w'.pitchBend.target = v.pitchBend.target
          ∧ w.pitch.target ≠ v.pitch.target
          ∧ w.pitchBend.target ≠ v.pitchBend.target := by
  have hreach : Reachable soloist :=
    Reachable.operateAll (reachableBy_idlePair _) [.stage { voices := 1 }]
  have hprotocol : soloist.adoptAwaited.settings.protocol = .conventional := by
    decide +kernel
  have hn : 0 < blockLength 8 (Buffer.silent 1 8) := by
    decide
  have halone : (queueOf pressedAndBent).dueBefore (soloist.clock + 8) = pressedAndBent := by
    decide +kernel
  have hboth : (queueOf (pressedAndBent ++ [soundOff])).dueBefore (soloist.clock + 8)
      = pressedAndBent ++ [soundOff] := by
    decide +kernel
  have hsilences : soloist.adoptAwaited.silences soundOff = true := by
    decide +kernel
  have hid : 0 < soloist.adoptAwaited.bank.count := by
    decide +kernel
  have hlength : 0 < soloist.adoptAwaited.bank.voices.length := by
    decide +kernel
  obtain ⟨v, hv⟩ : ∃ v, soloist.adoptAwaited.bank.voices[0]? = some v :=
    ⟨_, List.getElem?_eq_getElem hlength⟩
  obtain ⟨hsamples, u, w, w', _, hw, hw', htargets⟩ :=
    silenced_block 8 (Buffer.silent 1 8) hreach hprotocol hn halone hboth
      hsilences hid hv
  -- the voice that sounded is headed elsewhere than the one before the block
  have hmoved : ((soloist.withQueue (queueOf pressedAndBent)).process 8
      (Buffer.silent 1 8)).1.bank.voices[0]?.all (fun w =>
        soloist.adoptAwaited.bank.voices[0]?.all fun v =>
          decide (w.pitch.target ≠ v.pitch.target ∧ w.pitchBend.target ≠ v.pitchBend.target))
      = true := by
    decide +kernel
  simp only [hw, hv, Option.all_some, decide_eq_true_eq] at hmoved
  obtain ⟨hpitch, hbend⟩ := hmoved
  have hclosed := (hsamples (by decide) .gate ⟨0, hn⟩).1
  exact ⟨hreach, hprotocol, hn, halone, hboth, hsilences, hid, hclosed, by decide +kernel,
    v, w, w', hv, hw, hw', (htargets .pitch rfl).1, (htargets .pitchBend rfl).1, hpitch, hbend⟩

end Blocks

end Engine
end Polyphony
