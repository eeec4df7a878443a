import Polyphony.Proofs.Engine.Agreement
import Polyphony.Proofs.Engine.Regulation

/-!
# How the streams are composed

A block renders many ramps, some of them shared by all voices or by those of one
channel, and writes sums of them into the streams of a voice.  Here every sample
of every stream is given as one sum of samples, each of which a ramp has at that
frame when it is rendered on its own.

**Results.**
* `getElem?_renderVoice`: the samples of the streams of a voice that is rendered.
* `composes`: the samples that a block leaves in the output buffer.
-/

namespace Polyphony

namespace Signal

section Samples

variable {s t : Signal} {i : Nat} {x y : Float32}

theorem getElem?_add
    (hs : s[i]? = some x)
    (ht : t[i]? = some y) :
    (s.add t)[i]? = some (x + y) := by
  unfold add
  rw [Array.getElem?_zipWith, hs, ht]

theorem getElem?_shift
    (hs : s[i]? = some x)
    (amount : Float32) :
    (s.shift amount)[i]? = some (x + amount) := by
  unfold shift
  rw [Array.getElem?_map, hs, Option.map_some]

theorem getElem?_scale
    (hs : s[i]? = some x)
    (factor : Float32) :
    (s.scale factor)[i]? = some (x * factor) := by
  unfold scale
  rw [Array.getElem?_map, hs, Option.map_some]

theorem getElem?_bipolar
    (hs : s[i]? = some x) :
    s.bipolar[i]? = some (x * 2.0 - 1.0) := by
  unfold bipolar
  rw [Array.getElem?_map, hs, Option.map_some]

end Samples

end Signal

namespace Ramp

section Samples

/-- The sample at a frame of a block that the ramp renders on its own. -/
def sampleAt (r : Ramp) {n : Nat} (i : Fin n) : Float32 :=
  have : i.val < (r.render n).1.size := by simp
  (r.render n).1[i.val]

/-- A value with the sample at a frame added to it, unless the ramp rests on zero. -/
def onto (r : Ramp) {n : Nat} (i : Fin n) (x : Float32) : Float32 :=
  if r.isResting && r.value == 0.0 then x else x + r.sampleAt i

variable {n : Nat}

theorem getElem?_render (r : Ramp) (i : Fin n) :
    (r.render n).1[i.val]? = some (r.sampleAt i) := by
  exact Array.getElem?_eq_getElem _

/-- What a ramp at rest renders. -/
theorem sampleAt_of_isResting
    {r : Ramp}
    (h : r.isResting = true)
    (i : Fin n) :
    r.sampleAt i = r.value := by
  unfold sampleAt render
  simp only [h, if_true, Signal.constant, Array.getElem_replicate]

/-- Adding a ramp to a block adds its samples. -/
theorem getElem?_addOnto
    (r : Ramp) {block : Signal} (i : Fin n) {x : Float32}
    (hsize : block.size = n)
    (hx : block[i.val]? = some x) :
    (r.addOnto block).1[i.val]? = some (r.onto i x) := by
  subst hsize
  have hpos : 0 < block.size := Nat.zero_lt_of_lt i.isLt
  cases hrest : r.isResting with
  | true =>
      unfold addOnto onto
      simp only [hrest, if_true, Bool.true_and, sampleAt_of_isResting hrest]
      split
      · exact hx
      · exact Signal.getElem?_shift hx _
  | false =>
      have hsample := r.getElem?_render i
      rw [render_eq r hpos, List.getElem?_toArray] at hsample
      unfold addOnto onto
      simp only [hrest, Bool.false_eq_true, if_false, Bool.false_and]
      rw [← Array.getElem?_toList, toList_overlay, List.getElem?_zipWith, hsample,
        Array.getElem?_toList, hx]

end Samples

end Ramp

namespace Engine

section Formula

variable (e : Engine) (v : Voice) {n : Nat} (i : Fin n)

/-- The bend of a channel, if it is one that a note can have to itself. -/
def ownBend? (channel : UInt8) : Option Ramp :=
  if 2 ≤ channel.toNat ∧ channel.toNat ≤ 16 then e.channelBends[channel.toNat - 1]? else none

/-- The sample of the pitch with its bends. -/
def bentSample : Float32 :=
  match e.settings.protocol with
  | .conventional => v.pitchBend.onto i (v.pitch.sampleAt i)
  | .expressive =>
    let shared := v.pitch.sampleAt i + e.main.pitchBend.sampleAt i
    match e.ownBend? v.channel with
    | some bend => shared + bend.sampleAt i
    | none => shared
  | .continuousTouch => v.pitch.sampleAt i

/-- The sample of the pitch with its bends and drift. -/
def driftedSample : Float32 :=
  if 0.0 < e.settings.drift then
    e.bentSample v i + v.drift.sampleAt i * e.settings.drift
  else e.bentSample v i

/-- The sample of the pitch stream. -/
def pitchSample : Float32 :=
  if e.tuningShift == 0.0 then e.driftedSample v i
  else e.driftedSample v i + e.tuningShift

/-- The sample of the aftertouch stream. -/
def aftertouchSample : Float32 :=
  match e.settings.protocol with
  | .conventional => v.channelPressure.onto i (v.notePressure.sampleAt i)
  | .expressive => v.channelPressure.sampleAt i + e.main.channelPressure.sampleAt i
  | .continuousTouch => v.amp.sampleAt i

/-- The sample of a modulation with that of the main channel, if the protocol adds it. -/
def modSample (own shared : Ramp) (stretched : Bool) : Float32 :=
  match e.settings.protocol with
  | .expressive =>
    let sum := own.sampleAt i + shared.sampleAt i
    if stretched then sum * 2.0 - 1.0 else sum
  | .conventional => own.sampleAt i
  | .continuousTouch => own.sampleAt i

/-- The sample of a stream of the voice with the number `id`. -/
def composed (id : Nat) : Stream → Float32
  | .pitch => e.pitchSample v i
  | .gate => v.gate.sampleAt i
  | .velocity => v.velocity.sampleAt i
  | .voice => Float32.ofNat id
  | .aftertouch => e.aftertouchSample v i
  | .modA => e.modSample i v.mod1 e.main.mod1 false
  | .modB => e.modSample i v.mod2 e.main.mod2 (e.settings.xController == 73)
  | .modC => e.modSample i v.mod3 e.main.mod3 true

end Formula

section Composition

variable {e : Engine} {n : Nat}

/-- The channels with a place, but for the main one, are those from two to sixteen. -/
theorem bind_channelIndex? {α : Type} (look : Nat → Option α) (channel : UInt8) :
    (if channel = mainChannel then none else (channelIndex? channel).bind look)
      = if 2 ≤ channel.toNat ∧ channel.toNat ≤ 16 then look (channel.toNat - 1) else none := by
  unfold channelIndex? channelCount
  by_cases hmain : channel = mainChannel
  · subst hmain
    rfl
  · have hne : channel.toNat ≠ 1 := fun h => hmain (UInt8.toNat_inj.1 h)
    rw [if_neg hmain]
    by_cases hrange : 2 ≤ channel.toNat ∧ channel.toNat ≤ 16
    · rw [if_pos hrange, if_pos ⟨by omega, hrange.2⟩]
      rfl
    · rw [if_neg hrange, if_neg (by omega)]
      rfl

/-- The bends that are added are those of the channels but for the main one. -/
theorem ownBend?_eq (e : Engine) (channel : UInt8) :
    e.ownBend? channel = if channel = mainChannel then none else e.bend? channel :=
  (bind_channelIndex? (fun i => e.channelBends[i]?) channel).symm

/-- Exactly the channels from two to sixteen have a bend that is added. -/
theorem isSome_ownBend?_iff
    (h : e.Regulated)
    (channel : UInt8) :
    (e.ownBend? channel).isSome ↔ 2 ≤ channel.toNat ∧ channel.toNat ≤ 16 := by
  have hlength : e.channelBends.length = 16 := length_channelBends h
  unfold ownBend?
  split
  case isTrue hrange =>
    rw [List.getElem?_eq_getElem (by omega)]
    simp [hrange]
  case isFalse hrange => simp [hrange]

theorem getElem?_bentPitch (e : Engine) (v : Voice) (i : Fin n) :
    ((e.blockContext n).bentPitch v).1[i.val]? = some (e.bentSample v i) := by
  have hpitch := v.pitch.getElem?_render i
  unfold BlockContext.bentPitch bentSample
  cases hprotocol : e.settings.protocol with
  | conventional =>
      simp only [blockContext, hprotocol]
      exact v.pitchBend.getElem?_addOnto i (Ramp.size_render _ _) hpitch
  | expressive =>
      have hshared : (e.blockContext n).shared.bend = (e.main.pitchBend.render n).1 := by
        unfold blockContext sharedSignals
        rw [hprotocol]
        rfl
      have hsum := Signal.getElem?_add hpitch (e.main.pitchBend.getElem?_render i)
      dsimp only
      rw [channelBend?_blockContext hprotocol, hshared, ownBend?_eq]
      simp only [blockContext, hprotocol]
      by_cases hmain : v.channel = mainChannel
      · simp only [hmain, if_true]
        exact hsum
      · simp only [hmain, if_false]
        cases e.bend? v.channel with
        | none => exact hsum
        | some bend => exact Signal.getElem?_add hsum (bend.getElem?_render i)
  | continuousTouch =>
      simp only [blockContext, hprotocol]
      exact hpitch

/-- Bending the pitch leaves the drift of the voice alone. -/
theorem drift_bentPitch (c : BlockContext) (v : Voice) :
    (c.bentPitch v).2.drift = v.drift := by
  unfold BlockContext.bentPitch
  cases c.settings.protocol with
  | conventional => rfl
  | expressive =>
      dsimp only
      split <;> rfl
  | continuousTouch => rfl

theorem getElem?_pitch (e : Engine) (v : Voice) (i : Fin n) :
    ((e.blockContext n).pitch v).1[i.val]? = some (e.pitchSample v i) := by
  have hbent := e.getElem?_bentPitch v i
  have hdrifted :
      ((e.blockContext n).driftedPitch ((e.blockContext n).bentPitch v).1
        ((e.blockContext n).bentPitch v).2).1[i.val]? = some (e.driftedSample v i) := by
    unfold BlockContext.driftedPitch driftedSample
    rw [drift_bentPitch]
    show (if 0.0 < e.settings.drift then _ else _ : Signal × Voice).1[i.val]? = _
    split
    · exact Signal.getElem?_add hbent
        (Signal.getElem?_scale (v.drift.getElem?_render i) e.settings.drift)
    · exact hbent
  show ((e.blockContext n).tunedPitch _)[i.val]? = _
  unfold BlockContext.tunedPitch pitchSample
  show (if (e.tuningShift == 0.0) = true then _ else _ : Signal)[i.val]? = _
  split
  · exact hdrifted
  · exact Signal.getElem?_shift hdrifted e.tuningShift

theorem getElem?_aftertouch (e : Engine) (v : Voice) (i : Fin n) :
    ((e.blockContext n).aftertouch v).1[i.val]? = some (e.aftertouchSample v i) := by
  unfold BlockContext.aftertouch aftertouchSample
  cases hprotocol : e.settings.protocol with
  | conventional =>
      simp only [blockContext, hprotocol]
      exact v.channelPressure.getElem?_addOnto i (Ramp.size_render _ _)
        (v.notePressure.getElem?_render i)
  | expressive =>
      have hshared :
          (e.blockContext n).shared.pressure = (e.main.channelPressure.render n).1 := by
        unfold blockContext sharedSignals
        rw [hprotocol]
        rfl
      rw [hshared]
      simp only [blockContext, hprotocol]
      exact Signal.getElem?_add (v.channelPressure.getElem?_render i)
        (e.main.channelPressure.getElem?_render i)
  | continuousTouch =>
      simp only [blockContext, hprotocol]
      exact v.amp.getElem?_render i

/-- A modulation with the one that the main channel renders, or whatever else if it is not added. -/
theorem getElem?_busMod
    (e : Engine) (own main : Ramp) {shared : Signal} (stretched : Bool) (i : Fin n)
    (hshared : e.settings.protocol = .expressive → shared = (main.render n).1) :
    ((e.blockContext n).busMod (own.render n).1 shared stretched)[i.val]?
      = some (e.modSample i own main stretched) := by
  unfold BlockContext.busMod modSample
  cases hprotocol : e.settings.protocol with
  | conventional =>
      simp only [blockContext, hprotocol]
      exact own.getElem?_render i
  | expressive =>
      have hsum := Signal.getElem?_add (own.getElem?_render i) (main.getElem?_render i)
      rw [hshared hprotocol]
      simp only [blockContext, hprotocol]
      cases stretched with
      | true => exact Signal.getElem?_bipolar hsum
      | false => exact hsum
  | continuousTouch =>
      simp only [blockContext, hprotocol]
      exact own.getElem?_render i

/-- The shared modulations, where they are added. -/
theorem shared_blockContext
    (hprotocol : e.settings.protocol = .expressive)
    (n : Nat) :
    (e.blockContext n).shared.mod1 = (e.main.mod1.render n).1
      ∧ (e.blockContext n).shared.mod2 = (e.main.mod2.render n).1
      ∧ (e.blockContext n).shared.mod3 = (e.main.mod3.render n).1 := by
  unfold blockContext sharedSignals
  rw [hprotocol]
  exact ⟨rfl, rfl, rfl⟩

/-- A rendered voice has the sum of each stream at every frame. -/
theorem getElem?_renderVoice (e : Engine) (id : Nat) (v : Voice) (i : Fin n) (s : Stream) :
    (((e.blockContext n).renderVoice id v).1.get s)[i.val]? = some (e.composed v i id s) := by
  rw [BlockContext.renderVoice_fst]
  cases s with
  | pitch => exact e.getElem?_pitch v i
  | gate => exact v.gate.getElem?_render i
  | velocity => exact v.velocity.getElem?_render i
  | voice => exact Array.getElem?_replicate.trans (if_pos i.isLt)
  | aftertouch => exact e.getElem?_aftertouch v i
  | modA => exact e.getElem?_busMod _ _ _ i fun h => (shared_blockContext h n).1
  | modB => exact e.getElem?_busMod _ _ _ i fun h => (shared_blockContext h n).2.1
  | modC => exact e.getElem?_busMod _ _ _ i fun h => (shared_blockContext h n).2.2

end Composition

section Blocks

variable {e : Engine} {frames : Nat} {out : Buffer}

/-- The engine whose events have been performed is one within the block. -/
theorem midway_performed
    (h : Reachable e)
    (n : Nat) :
    Midway (e.adoptAwaited.performed n) := by
  rw [performed_eq]
  exact (Midway.opened h n).performAll _

/-- Performing the events of a block does not change how many voices play. -/
theorem count_performed (e : Engine) (n : Nat) :
    (e.performed n).bank.count = e.bank.count := by
  have hopened : (e.opened n).bank.count = e.bank.count := by
    rw [opened_eq]
    rfl
  rw [performed_eq, ← hopened]
  exact congrArg Background.count (background_performAll _ (e.opened n))

/-- Only new settings change how many voices play. -/
theorem count_process (e : Engine) (frames : Nat) (out : Buffer) :
    (e.process frames out).1.bank.count = e.adoptAwaited.bank.count := by
  unfold process
  dsimp only
  split
  · rfl
  · have hroster := roster_renderBlock e.adoptAwaited (blockLength frames out) out
    exact (congrArg Roster.count hroster).trans (count_performed _ _)

/-- The voices that play in a block exist. -/
theorem exists_voice_performed
    (h : Reachable e)
    {n id : Nat}
    (hid : id < e.adoptAwaited.bank.count) :
    ∃ v, (e.adoptAwaited.performed n).bank.voices[id]? = some v := by
  have hfits := (concordant_invariant.of_midway (midway_performed h n)).fits_voices
  rw [count_performed] at hfits
  exact ⟨_, List.getElem?_eq_getElem (by omega)⟩

/-- The streams of a block fit into its buffer. -/
theorem size_signals_le_frames
    (e : Engine) (frames : Nat) (out : Buffer) :
    ∀ own ∈ (e.renderVoices (blockLength frames out) out.voices).1,
      ∀ s, (own.get s).size ≤ out.frames :=
  fun _ hown s => Nat.le_trans (size_signals_le hown s) (Nat.min_le_right _ _)

/-- A block that has frames writes the signals of its voices. -/
theorem process_snd
    (hn : 0 < blockLength frames out) :
    (e.process frames out).2
      = out.putVoices ((e.adoptAwaited.performed (blockLength frames out)).renderVoices
          (blockLength frames out) out.voices).1 := by
  simp only [process, Nat.ne_of_gt hn, if_false, renderBlock_snd]

/--
After a block of `n` frames, every stream of every voice that plays and has a place
in the buffer begins with `n` sums.  What is added are the samples that the ramps
render on their own once the events of the block have been performed; a bend of
its own has exactly the voice whose channel is one from two to sixteen.
-/
theorem composes
    (h : Reachable e)
    (hn : 0 < blockLength frames out)
    {id : Nat}
    (hid : id < (e.process frames out).1.bank.count)
    (hplace : id < out.voices) :
    ∃ v, (e.adoptAwaited.performed (blockLength frames out)).bank.voice? id = some v
      ∧ (((e.adoptAwaited.performed (blockLength frames out)).ownBend? v.channel).isSome
          ↔ 2 ≤ v.channel.toNat ∧ v.channel.toNat ≤ 16)
      ∧ ∀ s, ∃ plane, (e.process frames out).2.stream? id s = some plane
        ∧ ∀ i : Fin (blockLength frames out), plane[i.val]?
          = some ((e.adoptAwaited.performed (blockLength frames out)).composed v i id s) := by
  have hregulated := regulated_invariant.performed (blockLength frames out)
    (regulated_invariant.adoptAwaited (regulated_invariant.of_reachable h))
  rw [count_process] at hid
  obtain ⟨v, hv⟩ := exists_voice_performed h (n := blockLength frames out) hid
  refine ⟨v, hv, isSome_ownBend?_iff hregulated v.channel, fun s => ?_⟩
  have hle : blockLength frames out ≤ out.frames := Nat.min_le_right _ _
  obtain ⟨plane, hplane, hread⟩ := Buffer.stream?_putVoices s hplace (Nat.lt_of_lt_of_le hn hle)
    (size_signals_le_frames _ frames out)
  rw [process_snd hn]
  refine ⟨plane, hplane, fun i => ?_⟩
  have hsample := getElem?_renderVoice (e.adoptAwaited.performed (blockLength frames out)) id v i s
  obtain ⟨hlt, _⟩ := Array.getElem?_eq_some_iff.1 hsample
  rw [hread i (Nat.lt_of_lt_of_le i.isLt hle)]
  unfold Buffer.written
  rw [getElem?_renderVoices_fst, count_performed, if_pos (by omega), hv, Option.map_some]
  exact (if_pos hlt).trans hsample

/-- Two voices that drift, out of tune, and a note whose channel and the main one are bent. -/
def bentFinger : Engine :=
  [.stage { voices := 2, protocol := .expressive, drift := 1.0, masterTune := 442.0 },
    .push (Event.noteOn 3 2 60.0 1.0 0), .push (Event.pitchBend 3 2 12000 1),
    .push (Event.pitchBend 0 1 4000 2), .push (Event.controller 0 1 74 0.25 2)].foldl
    Engine.operate (idle 2 48000.0 (EventQueue.empty 8) {} .plain)

/-- Every sample of the bent note is the sum that the formula says. -/
theorem composes_bentFinger :
    Reachable bentFinger
      ∧ 0 < blockLength 4 (Buffer.silent 2 4)
      ∧ 0 < (bentFinger.process 4 (Buffer.silent 2 4)).1.bank.count
      ∧ ∃ v, (bentFinger.adoptAwaited.performed 4).bank.voice? 0 = some v
        ∧ ∀ s, ∃ plane, (bentFinger.process 4 (Buffer.silent 2 4)).2.stream? 0 s = some plane
          ∧ ∀ i : Fin 4, plane[i.val]?
            = some ((bentFinger.adoptAwaited.performed 4).composed v i 0 s) := by
  have hreach : Reachable bentFinger := Reachable.operateAll (reachableBy_idlePair _) _
  have hlength : 0 < blockLength 4 (Buffer.silent 2 4) := by
    decide
  have hcount : 0 < (bentFinger.process 4 (Buffer.silent 2 4)).1.bank.count := by
    decide +kernel
  obtain ⟨v, hv, _, hstreams⟩ := composes hreach hlength hcount (show 0 < 2 by decide)
  exact ⟨hreach, hlength, hcount, v, hv, hstreams⟩

end Blocks

end Engine
end Polyphony
