import Polyphony.Proofs.Engine.Frames
import Polyphony.Proofs.Signal.Planes

/-!
# Blocks as they are processed

Processing renders whole ramps, adds signals to signals, writes them into a
buffer and drops what is left.  A gentle block does the same as taking its frames
one after the other.

**Likeness.**  A stream that is the sum of two ramps is the sum of their values
only up to the sign of a zero, since a ramp that rests on zero is not added.

**Results.**
* `abreast_process`: processing a block leaves the engine as its frames do.
* `stream?_process`: the buffer holds what is heard of the frames.
-/

namespace Polyphony

section Likeness

/-- Whether two runs of a stream are the same, sums of ramps up to the sign of zeros. -/
def Stream.Alike (p : Protocol) (s : Stream) (xs ys : List Float32) : Prop :=
  if p = .conventional ∧ (s = .pitch ∨ s = .aftertouch) then
    List.Forall₂ Binary32.SameNumber xs ys
  else xs = ys

namespace Stream.Alike

variable {p : Protocol} {s : Stream} {xs ys zs : List Float32}

theorem of_same
    (h : List.Forall₂ Binary32.SameNumber xs ys)
    (hsum : p = .conventional ∧ (s = .pitch ∨ s = .aftertouch)) :
    Alike p s xs ys := by
  unfold Alike
  rw [if_pos hsum]
  exact h

theorem refl (p : Protocol) (s : Stream) (xs : List Float32) :
    Alike p s xs xs := by
  unfold Alike
  split
  · exact List.forall₂_same.2 fun x _ => Binary32.SameNumber.refl x
  · rfl

theorem symm
    (h : Alike p s xs ys) :
    Alike p s ys xs := by
  unfold Alike at h ⊢
  split at h
  case isTrue hsum =>
    rw [if_pos hsum]
    exact (List.Forall₂.imp (fun _ _ => Binary32.SameNumber.symm) h).flip
  case isFalse hsum =>
    rw [if_neg hsum]
    exact h.symm

theorem trans
    (h : Alike p s xs ys)
    (h' : Alike p s ys zs) :
    Alike p s xs zs := by
  unfold Alike at h h' ⊢
  split at h
  case isTrue hsum =>
    rw [if_pos hsum] at h' ⊢
    induction h generalizing zs with
    | nil => exact h'
    | cons hxy _ ih =>
        cases h' with
        | cons hyz hrest => exact .cons (hxy.trans hyz) (ih hrest)
  case isFalse hsum =>
    rw [if_neg hsum] at h' ⊢
    exact h.trans h'

theorem append
    {xs' ys' : List Float32}
    (h : Alike p s xs ys)
    (h' : Alike p s xs' ys') :
    Alike p s (xs ++ xs') (ys ++ ys') := by
  unfold Alike at h h' ⊢
  split at h
  case isTrue hsum =>
    rw [if_pos hsum] at h' ⊢
    exact List.rel_append h h'
  case isFalse hsum =>
    rw [if_neg hsum] at h' ⊢
    rw [h, h']

theorem length_eq
    (h : Alike p s xs ys) :
    xs.length = ys.length := by
  unfold Alike at h
  split at h
  · exact h.length_eq
  · rw [h]

end Stream.Alike

end Likeness

namespace Ramp

/-- The values of the next frames, each as that of a later ramp. -/
theorem samples_eq_map (n : Nat) (r : Ramp) :
    samples n r = (List.range n).map fun k => (next^[k + 1] r).value := by
  induction n generalizing r with
  | zero => rfl
  | succ n ih =>
      rw [samples, ih, List.range_succ_eq_map, List.map_cons, List.map_map]
      rfl

end Ramp

namespace Rule

theorem iterate_frame (s : Settings) (role : Role) (n : Nat) (r : Ramp) :
    (frame s role)^[n] r = if s.renders role then Ramp.next^[n] r else Ramp.skip^[n] r := by
  cases hrenders : s.renders role with
  | true =>
      have hnext : frame s role = Ramp.next := by
        funext r
        unfold frame
        rw [hrenders, if_pos rfl]
      rw [hnext, if_pos rfl]
  | false =>
      have hskip : frame s role = Ramp.skip := by
        funext r
        unfold frame
        rw [hrenders, if_neg Bool.false_ne_true]
      rw [hskip, if_neg Bool.false_ne_true]

end Rule

namespace BlockContext

section Voices

variable {c : BlockContext} {v : Voice}

/-- The values of a ramp of a voice over the frames of a block. -/
def values (c : BlockContext) (v : Voice) (role : Role) : List Float32 :=
  (List.range c.frames).map fun k =>
    (((Controls.apply (Rule.frame c.settings))^[k + 1] v.toControls).get role).value

/-- What a stream of a voice is worth over the frames of a block. -/
def levels (c : BlockContext) (v : Voice) (id : Nat) (s : Stream) : List Float32 :=
  (List.range c.frames).map fun k =>
    ((Controls.apply (Rule.frame c.settings))^[k + 1] v.toControls).level c.settings
      c.tuningShift id s

/-- Whether all pending changes of a voice are within the block. -/
def Contains (c : BlockContext) (v : Voice) : Prop :=
  ∀ role, ∀ change ∈ (v.toControls.get role).pending, change.offset < c.frames

theorem samples_eq_values
    {role : Role}
    (hrenders : c.settings.renders role = true) :
    Ramp.samples c.frames (v.toControls.get role) = c.values v role := by
  rw [Ramp.samples_eq_map]
  unfold values
  apply List.map_congr_left
  intro k _
  rw [Controls.get_iterate_apply, Rule.iterate_frame, hrenders, if_pos rfl]

/-- A rendered ramp holds its values. -/
theorem toList_render
    (hframes : 0 < c.frames)
    (hcontains : c.Contains v)
    {role : Role}
    (hrenders : c.settings.renders role = true) :
    ((v.toControls.get role).render c.frames).1.toList = c.values v role := by
  rw [Ramp.render_eq _ hframes, Ramp.within_of_lt (hcontains role)]
  exact samples_eq_values hrenders

/-- A rendered ramp with another one added holds the sums of their values. -/
theorem toList_addOnto
    (hframes : 0 < c.frames)
    (hcontains : c.Contains v)
    (role added : Role)
    (hrenders : c.settings.renders role = true)
    (hadded : c.settings.renders added = true) :
    List.Forall₂ Binary32.SameNumber
      ((v.toControls.get added).addOnto ((v.toControls.get role).render c.frames).1).1.toList
      ((List.range c.frames).map fun k =>
        (((Controls.apply (Rule.frame c.settings))^[k + 1] v.toControls).get role).value
          + (((Controls.apply (Rule.frame c.settings))^[k + 1] v.toControls).get added).value) := by
  have hsize : ((v.toControls.get role).render c.frames).1.size = c.frames :=
    Ramp.size_render _ _
  have hsum := Ramp.addOnto_fst (v.toControls.get added) ((v.toControls.get role).render c.frames).1
  rw [hsize, Ramp.within_of_lt (hcontains added), samples_eq_values hadded,
    toList_render hframes hcontains hrenders] at hsum
  unfold values at hsum
  rw [List.zipWith_map, List.zipWith_self] at hsum
  exact hsum

/-- The pitch stream of a voice, before it is tuned. -/
theorem pitch_fst
    (hstill : ¬ 0.0 < c.settings.drift) :
    (c.pitch v).1 = c.tunedPitch (c.bentPitch v).1 := by
  unfold pitch driftedPitch
  simp only [if_neg hstill]

theorem toList_tunedPitch (c : BlockContext) (pitch : Signal) :
    (c.tunedPitch pitch).toList
      = pitch.toList.map fun x => if c.tuningShift == 0.0 then x else x + c.tuningShift := by
  unfold tunedPitch
  split
  · rw [List.map_id']
  · exact Array.toList_map

theorem busMod_eq
    (hprotocol : c.settings.protocol ≠ .expressive)
    (own shared : Signal) (stretched : Bool) :
    c.busMod own shared stretched = own := by
  unfold busMod
  cases hp : c.settings.protocol with
  | conventional => rfl
  | expressive => exact absurd hp hprotocol
  | continuousTouch => rfl

theorem alike_pitch
    (hprotocol : c.settings.protocol ≠ .expressive)
    (hstill : ¬ 0.0 < c.settings.drift)
    (hframes : 0 < c.frames)
    (hcontains : c.Contains v)
    (id : Nat) :
    Stream.pitch.Alike c.settings.protocol (c.pitch v).1.toList (c.levels v id .pitch) := by
  rw [pitch_fst hstill, toList_tunedPitch]
  cases hp : c.settings.protocol with
  | conventional =>
      have hsum := toList_addOnto hframes hcontains .pitch .pitchBend rfl
        (by simp [Settings.renders, hp])
      have hbent : (c.bentPitch v).1 = (v.pitchBend.addOnto (v.pitch.render c.frames).1).1 := by
        unfold bentPitch
        rw [hp]
      have hlevels : c.levels v id .pitch
          = ((List.range c.frames).map fun k =>
              (((Controls.apply (Rule.frame c.settings))^[k + 1] v.toControls).get .pitch).value
                + (((Controls.apply (Rule.frame c.settings))^[k + 1] v.toControls).get
                    .pitchBend).value).map
              fun x => if c.tuningShift == 0.0 then x else x + c.tuningShift := by
        unfold levels
        rw [List.map_map]
        simp only [Controls.level, hp]
        rfl
      refine Stream.Alike.of_same ?_ ⟨rfl, Or.inl rfl⟩
      rw [hlevels, hbent, List.forall₂_map_left_iff, List.forall₂_map_right_iff]
      refine hsum.imp ?_
      intro x y hxy
      split
      · exact hxy
      · exact hxy.add_right _
  | expressive => exact absurd hp hprotocol
  | continuousTouch =>
      have hbent : (c.bentPitch v).1 = ((v.toControls.get .pitch).render c.frames).1 := by
        unfold bentPitch
        rw [hp]
        rfl
      have hlevels : c.levels v id .pitch
          = (c.values v .pitch).map
              fun x => if c.tuningShift == 0.0 then x else x + c.tuningShift := by
        unfold levels values
        rw [List.map_map]
        simp only [Controls.level, hp]
        rfl
      rw [hbent, toList_render hframes hcontains rfl, hlevels]
      exact Stream.Alike.refl _ _ _

theorem alike_aftertouch
    (hprotocol : c.settings.protocol ≠ .expressive)
    (hframes : 0 < c.frames)
    (hcontains : c.Contains v)
    (id : Nat) :
    Stream.aftertouch.Alike c.settings.protocol (c.aftertouch v).1.toList
      (c.levels v id .aftertouch) := by
  cases hp : c.settings.protocol with
  | conventional =>
      have hsum := toList_addOnto hframes hcontains .notePressure .channelPressure
        (by simp [Settings.renders, hp]) (by simp [Settings.renders, hp])
      have htouch : (c.aftertouch v).1
          = (v.channelPressure.addOnto (v.notePressure.render c.frames).1).1 := by
        unfold aftertouch
        rw [hp]
      have hlevels : c.levels v id .aftertouch
          = (List.range c.frames).map fun k =>
              (((Controls.apply (Rule.frame c.settings))^[k + 1] v.toControls).get
                  .notePressure).value
                + (((Controls.apply (Rule.frame c.settings))^[k + 1] v.toControls).get
                    .channelPressure).value := by
        unfold levels
        simp only [Controls.level, hp]
        rfl
      refine Stream.Alike.of_same ?_ ⟨rfl, Or.inr rfl⟩
      rw [hlevels, htouch]
      exact hsum
  | expressive => exact absurd hp hprotocol
  | continuousTouch =>
      have htouch : (c.aftertouch v).1 = ((v.toControls.get .amp).render c.frames).1 := by
        unfold aftertouch
        rw [hp]
        rfl
      have hlevels : c.levels v id .aftertouch = c.values v .amp := by
        unfold levels values
        simp only [Controls.level, hp]
        rfl
      rw [htouch, toList_render hframes hcontains (by simp [Settings.renders, hp]), hlevels]
      exact Stream.Alike.refl _ _ _

/-- Every stream of a voice is what it is worth over the frames. -/
theorem alike_renderVoice
    (hprotocol : c.settings.protocol ≠ .expressive)
    (hstill : ¬ 0.0 < c.settings.drift)
    (hframes : 0 < c.frames)
    (hcontains : c.Contains v)
    (id : Nat) (s : Stream) :
    s.Alike c.settings.protocol ((c.renderVoice id v).1.get s).toList (c.levels v id s) := by
  have hplain
      (role : Role) (hrenders : c.settings.renders role = true)
      (hlevels : c.levels v id s = c.values v role) :
      s.Alike c.settings.protocol ((v.toControls.get role).render c.frames).1.toList
        (c.levels v id s) := by
    rw [toList_render hframes hcontains hrenders, hlevels]
    exact Stream.Alike.refl _ _ _
  rw [renderVoice_fst]
  cases s with
  | pitch => exact alike_pitch hprotocol hstill hframes hcontains id
  | gate => exact hplain .gate rfl rfl
  | velocity => exact hplain .velocity rfl rfl
  | voice =>
      have hlevels : c.levels v id .voice = List.replicate c.frames (Float32.ofNat id) := by
        show (List.range c.frames).map (fun _ => Float32.ofNat id) = _
        rw [List.map_const', List.length_range]
      show Stream.voice.Alike _ (Signal.constant c.frames (Float32.ofNat id)).toList _
      rw [hlevels, Signal.constant, Array.toList_replicate]
      exact Stream.Alike.refl _ _ _
  | aftertouch => exact alike_aftertouch hprotocol hframes hcontains id
  | modA =>
      show Stream.modA.Alike _ (c.busMod _ _ _).toList _
      rw [busMod_eq hprotocol]
      exact hplain .mod1 rfl rfl
  | modB =>
      show Stream.modB.Alike _ (c.busMod _ _ _).toList _
      rw [busMod_eq hprotocol]
      exact hplain .mod2 rfl rfl
  | modC =>
      show Stream.modC.Alike _ (c.busMod _ _ _).toList _
      rw [busMod_eq hprotocol]
      exact hplain .mod3 rfl rfl

end Voices

end BlockContext

namespace Engine

section Processing

variable {e : Engine} {n : Nat} {out : Buffer}

/-- Without settings that wait, a block is rendered if it has frames and they have room. -/
theorem process_eq
    (hawaited : e.awaited? = none)
    (hn : 0 < n)
    (hmax : n ≤ maxBlock)
    (hframes : n ≤ out.frames) :
    e.process n out = e.renderBlock n out := by
  have hadopt : e.adoptAwaited = e := by
    unfold adoptAwaited
    rw [hawaited]
  have hlength : blockLength n out = n := by
    unfold blockLength
    omega
  have hne : n ≠ 0 := by
    omega
  unfold process
  rw [hadopt]
  dsimp only
  rw [hlength, if_neg hne]

theorem PendingWithin.contains
    (h : e.PendingWithin n)
    {id : Nat} {v : Voice}
    (hid : id < e.bank.count)
    (hv : e.bank.voices[id]? = some v) :
    (e.blockContext n).Contains v :=
  h v (Bank.mem_active_iff.2 ⟨id, hid, hv⟩)

/-- The ramps of a rendered voice, tidied, are those of its frames. -/
theorem dropPending_renderVoice
    {c : BlockContext} {v : Voice}
    (hframes : 0 < c.frames)
    (hcontains : c.Contains v)
    (id : Nat) :
    (c.renderVoice id v).2.dropPending.toControls
      = (Controls.apply (Rule.frame c.settings))^[c.frames] v.toControls := by
  apply Controls.ext_get
  intro role
  have hget : (c.renderVoice id v).2.dropPending.toControls.get role
      = ((c.renderVoice id v).2.toControls.get role).dropPending :=
    Controls.get_map _ _ role
  rw [hget, BlockContext.get_renderVoice c id v role hframes, Controls.get_iterate_apply,
    Rule.iterate_frame, Ramp.within_of_lt (hcontains role)]
  split
  · exact Ramp.dropPending_of_nil (Ramp.pending_iterate Ramp.pending_next (hcontains role))
  · exact (Ramp.iterate_skip (hcontains role)).symm

/-- Rendering a gentle block leaves the engine as its frames do. -/
theorem abreast_renderBlock
    (out : Buffer)
    (hready : e.Ready)
    (hn : 0 < n)
    (hgentle : e.GentleBlock n)
    (hplaces : e.bank.count ≤ out.voices) :
    Abreast (e.elapse n) (e.renderBlock n out).1 := by
  have hwithin := hready.pendingWithin hn hgentle
  have hcount : (e.performed n).bank.count = e.bank.count :=
    congrArg Background.count (background_performed hready.still n)
  have hmin : min (e.performed n).bank.count out.voices = (e.performed n).bank.count := by
    omega
  rw [renderBlock_fst, renderVoices_snd, hmin]
  unfold elapse
  rw [iterate_frame]
  generalize e.performed n = performed at *
  refine ⟨⟨rfl, rfl, rfl, rfl, rfl, rfl, rfl, rfl, ?_, ?_⟩, rfl, rfl⟩
  · show (List.map _ (List.mapIdx _ performed.bank.voices)).length
      = (performed.bank.mapActiveIdx _).voices.length
    rw [List.length_map, List.length_mapIdx]
    exact (Bank.capacity_mapActiveIdx _ _).symm
  · intro id v w hv hw
    have hv' : (performed.bank.mapActiveIdx fun _ v =>
        v.mapControls (Controls.apply (Rule.frame performed.settings))^[n]).voices[id]?
          = some v := hv
    have hw' : ((performed.bank.voices.mapIdx fun id v =>
        if id < performed.bank.count then ((performed.blockContext n).renderVoice id v).2
        else v).map Voice.dropPending)[id]? = some w := hw
    rw [Bank.getElem?_mapActiveIdx] at hv'
    obtain ⟨u, hu, rfl⟩ := Option.map_eq_some_iff.1 hv'
    rw [List.getElem?_map, List.getElem?_mapIdx, hu, Option.map_some, Option.map_some,
      Option.some.injEq] at hw'
    subst hw'
    by_cases hid : id < performed.bank.count
    · rw [if_pos hid, if_pos hid]
      refine ⟨?_, fun _ => ?_⟩
      · exact congrArg Tenancy.essence (BlockContext.tenancy_renderVoice _ id u)
      · exact dropPending_renderVoice hn (hwithin.contains hid hu) id
    · rw [if_neg hid, if_neg hid]
      exact ⟨rfl, fun hlt => absurd hlt hid⟩

/-- What is heard of the frames of a block is what the rendered voices are worth. -/
theorem heard_frame
    (id : Nat) {v : Voice}
    (hid : id < e.bank.count)
    (hv : e.bank.voices[id]? = some v)
    (s : Stream) :
    heard frame e id s n = (e.blockContext n).levels v id s := by
  unfold heard BlockContext.levels
  apply List.map_congr_left
  intro k _
  rw [iterate_frame]
  unfold level Bank.voice? mapActive Bank.mapActive
  dsimp only
  rw [Bank.getElem?_mapActiveIdx, hv]
  dsimp only [Option.map_some]
  rw [if_pos hid, Bank.count_mapActiveIdx, if_pos hid]
  rfl

/-- A voice that plays no notes is not heard. -/
theorem heard_frame_silent
    {id : Nat}
    (hid : ¬ id < e.bank.count)
    (s : Stream) :
    heard frame e id s n = List.replicate n 0.0 := by
  have hlevel (k : Nat) : (frame^[k + 1] e).level id s = 0.0 := by
    rw [iterate_frame]
    unfold level
    split
    · exact if_neg hid
    · rfl
  unfold heard
  simp only [hlevel]
  rw [List.map_const', List.length_range]

/-- The first samples of a plane are determined one by one. -/
theorem take_toList
    {plane signal : Signal}
    (h : ∀ j < signal.size, plane[j]? = signal[j]?) :
    plane.toList.take signal.size = signal.toList := by
  apply List.ext_getElem?
  intro j
  rw [List.getElem?_take, Array.getElem?_toList, Array.getElem?_toList]
  split
  case isTrue hj => exact h j hj
  case isFalse hj => exact (Array.getElem?_eq_none_iff.2 (by omega)).symm

/--
After a gentle block the buffer holds, at the beginning of each stream, what is
heard of the frames of the block.
-/
theorem stream?_renderBlock
    (hready : e.Ready)
    (hprotocol : e.settings.protocol ≠ .expressive)
    (hn : 0 < n)
    (hframes : n ≤ out.frames)
    (hgentle : e.GentleBlock n)
    (hplaces : e.bank.count ≤ out.voices)
    {id : Nat}
    (hid : id < out.voices)
    (s : Stream) :
    ∃ plane, (e.renderBlock n out).2.stream? id s = some plane
      ∧ s.Alike e.settings.protocol (plane.toList.take n)
          (heard frame (e.performed n) id s n) := by
  have hwithin := hready.pendingWithin hn hgentle
  have hsettings : (e.performed n).settings = e.settings := settings_performed hready.still n
  have hcount : (e.performed n).bank.count = e.bank.count :=
    congrArg Background.count (background_performed hready.still n)
  have hmin : min (e.performed n).bank.count out.voices = (e.performed n).bank.count := by
    omega
  have hfits : (e.performed n).bank.count ≤ (e.performed n).bank.voices.length :=
    ((hready.inOrder n).performAll hgentle).fits
  have hsize : ∀ own ∈ ((e.performed n).renderVoices n out.voices).1,
      ∀ s, (own.get s).size ≤ out.frames :=
    fun own hown s => Nat.le_trans (size_signals_le hown s) hframes
  have hpos : 0 < out.frames := by
    omega
  obtain ⟨plane, hplane, hread⟩ := Buffer.stream?_putVoices s hid hpos hsize
  refine ⟨plane, hplane, ?_⟩
  have hsignal := getElem?_renderVoices_fst (e.performed n) n out.voices id
  rw [hmin] at hsignal
  by_cases hlt : id < (e.performed n).bank.count
  · have hv : (e.performed n).bank.voices[id]? = some (e.performed n).bank.voices[id] :=
      List.getElem?_eq_getElem (by omega)
    rw [if_pos hlt, hv, Option.map_some] at hsignal
    have hstill : ¬ 0.0 < ((e.performed n).blockContext n).settings.drift := by
      show ¬ 0.0 < (e.performed n).settings.drift
      rw [hsettings]
      exact hready.still
    have hprotocol' : ((e.performed n).blockContext n).settings.protocol ≠ .expressive := by
      show (e.performed n).settings.protocol ≠ .expressive
      rw [hsettings]
      exact hprotocol
    have halike := BlockContext.alike_renderVoice hprotocol' hstill hn
      (hwithin.contains hlt hv) id s
    generalize ((e.performed n).blockContext n).renderVoice id _ = rendered at hsignal halike
    have hlength : (rendered.1.get s).size = n := by
      rw [← Array.length_toList, halike.length_eq]
      unfold BlockContext.levels
      rw [List.length_map, List.length_range]
      rfl
    have htake : plane.toList.take (rendered.1.get s).size = (rendered.1.get s).toList := by
      apply take_toList
      intro j hj
      rw [hread j (by omega), Buffer.written, hsignal]
      exact if_pos hj
    rw [hlength] at htake
    rw [htake, heard_frame id hlt hv, ← hsettings]
    exact halike
  · rw [if_neg hlt] at hsignal
    have hsilent : plane.toList.take n = List.replicate n 0.0 := by
      have htake : plane.toList.take (Signal.constant n 0.0).size
          = (Signal.constant n 0.0).toList := by
        apply take_toList
        intro j hj
        rw [Signal.constant, Array.size_replicate] at hj
        rw [hread j (by omega), Buffer.written, hsignal, Signal.constant,
          Array.getElem?_replicate, if_pos hj]
      rw [Signal.constant, Array.size_replicate, Array.toList_replicate] at htake
      exact htake
    rw [hsilent, heard_frame_silent hlt]
    exact Stream.Alike.refl _ _ _

end Processing

end Engine
end Polyphony
