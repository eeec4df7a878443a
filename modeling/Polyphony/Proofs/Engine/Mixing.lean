import Polyphony.Proofs.Engine.Composition
import Polyphony.Proofs.Engine.Scratch

/-!
# Mixing through the scratch planes

A block does not keep its shared signals in lists: they lie in the scratch planes,
where every voice reads those that the protocol adds, and the drift of a voice
takes its way through a plane of its own.  The streams are written voice by voice,
each into its place in the buffer.  All of this fails where a place does not exist.

**Results.**
* `exists_renderVoice?`: a voice is rendered as from lists, and the shared signals stay.
* `exists_foldlM_render?`: so are all voices, one after the other, and each finds its
  place in the buffer.
-/

namespace Polyphony

namespace Buffer

/--
Writes a signal over the first `n` frames of a stream, if the stream lies within
the buffer and is so long.
-/
def putStream?
    (b : Buffer)
    (voice : Nat)
    (s : Stream)
    (n : Nat)
    (signal : Signal) :
    Option Buffer :=
  if b.Contains (b.planeStart (planeOf voice s)) b.frames ∧ n ≤ b.frames then
    some (b.putStream voice s signal)
  else none

end Buffer

namespace VoiceSignals

/-- Writes the streams of a voice over the first `n` frames of its planes. -/
def writeTo? (s : VoiceSignals) (voice n : Nat) (b : Buffer) : Option Buffer :=
  Stream.all.foldlM (fun b stream => b.putStream? voice stream n (s.get stream)) b

theorem foldlM_putStream?
    (s : VoiceSignals) {voice n : Nat}
    (streams : List Stream)
    {b : Buffer}
    (hvoice : voice < b.voices)
    (hn : n ≤ b.frames) :
    streams.foldlM (fun b stream => b.putStream? voice stream n (s.get stream)) b
      = some (streams.foldl (fun b stream => b.putStream voice stream (s.get stream)) b) := by
  induction streams generalizing b with
  | nil => rfl
  | cons stream streams ih =>
      have hput : b.putStream? voice stream n (s.get stream)
          = some (b.putStream voice stream (s.get stream)) :=
        if_pos ⟨Buffer.contains_plane hvoice stream, hn⟩
      have hrest := ih (b := b.putStream voice stream (s.get stream)) hvoice hn
      rw [List.foldlM_cons, hput, List.foldl_cons]
      exact hrest

theorem writeTo?_eq
    (s : VoiceSignals) {voice n : Nat} {b : Buffer}
    (hvoice : voice < b.voices)
    (hn : n ≤ b.frames) :
    s.writeTo? voice n b = some (s.writeTo voice b) :=
  s.foldlM_putStream? Stream.all hvoice hn

end VoiceSignals

namespace SharedSignals

/-- The shared signals in the order of their planes. -/
def inOrder (s : SharedSignals) : List Signal :=
  [s.bend, s.pressure, s.mod1, s.mod2, s.mod3] ++ s.channelBends

end SharedSignals

namespace Scratch

/-- The scratch holds the shared signals of a block of `n` frames, one for every channel. -/
structure Holds (s : Scratch) (n : Nat) (shared : SharedSignals) : Prop where
  planes : ∀ k < shared.inOrder.length, s.read? (bendPlane + k) n = shared.inOrder[k]?
  channels : shared.channelBends.length = channelCount

section Holding

variable {s after : Scratch} {n : Nat} {shared : SharedSignals}

theorem Holds.read?_eq
    (h : s.Holds n shared)
    {k : Nat}
    (hk : k < 5 + channelCount) :
    s.read? (bendPlane + k) n = shared.inOrder[k]? := by
  refine h.planes k ?_
  rw [SharedSignals.inOrder, List.length_append, h.channels]
  exact hk

theorem Holds.channel
    (h : s.Holds n shared)
    {i : Nat}
    (hi : i < channelCount) :
    s.read? (channelPlane i) n = shared.channelBends[i]? := by
  have hplane : bendPlane + (5 + i) = channelPlane i := by
    unfold bendPlane channelPlane
    omega
  rw [← hplane, h.read?_eq (by omega), SharedSignals.inOrder,
    List.getElem?_append_right (by simp)]
  simp

/-- What is put into the plane of the drift does not touch the shared signals. -/
theorem Holds.put?
    {signal : Signal}
    (h : s.Holds n shared)
    (hput : s.put? driftPlane signal = some after) :
    after.Holds n shared where
  planes := fun k hk => by
    have hne : bendPlane + k ≠ driftPlane := by
      unfold bendPlane driftPlane
      omega
    rw [read?_put?_of_ne hput hne, h.planes k hk]
  channels := h.channels

end Holding

end Scratch

namespace BlockContext

section Rendering

/-- The pitch with the bends that the protocol adds; shared ones are read from the scratch. -/
def bentPitch? (c : BlockContext) (s : Scratch) (v : Voice) : Option (Signal × Voice) :=
  let (pitch, ramp) := v.pitch.render c.frames
  let v := { v with pitch := ramp }
  match c.settings.protocol with
  | .conventional =>
    let (pitch, ramp) := v.pitchBend.addOnto pitch
    some (pitch, { v with pitchBend := ramp })
  | .expressive => do
    let bend ← s.read? bendPlane c.frames
    let pitch := pitch.add bend
    if 2 ≤ v.channel.toNat ∧ v.channel.toNat ≤ 16 then
      let own ← s.read? (channelPlane (v.channel.toNat - 1)) c.frames
      some (pitch.add own, v)
    else some (pitch, v)
  | .continuousTouch => some (pitch, v)

/-- The pitch with the drift added, which takes its way through the scratch. -/
def driftedPitch?
    (c : BlockContext)
    (s : Scratch)
    (pitch : Signal)
    (v : Voice) :
    Option (Signal × Voice × Scratch) :=
  if 0.0 < c.settings.drift then do
    let (drift, ramp) := v.drift.render c.frames
    let s ← s.put? driftPlane drift
    let drift ← s.read? driftPlane c.frames
    some (pitch.add (drift.scale c.settings.drift), { v with drift := ramp }, s)
  else some (pitch, v, s)

/-- The aftertouch stream of a voice. -/
def aftertouch? (c : BlockContext) (s : Scratch) (v : Voice) : Option (Signal × Voice) :=
  match c.settings.protocol with
  | .conventional =>
    let (pressure, note) := v.notePressure.render c.frames
    let (pressure, channel) := v.channelPressure.addOnto pressure
    some (pressure, { v with notePressure := note, channelPressure := channel })
  | .expressive => do
    let (pressure, ramp) := v.channelPressure.render c.frames
    let shared ← s.read? pressurePlane c.frames
    some (pressure.add shared, { v with channelPressure := ramp })
  | .continuousTouch =>
    let (amp, ramp) := v.amp.render c.frames
    some (amp, { v with amp := ramp })

/-- A modulation with the one of a plane, if the protocol adds it. -/
def busMod?
    (c : BlockContext)
    (s : Scratch)
    (own : Signal)
    (plane : Nat)
    (stretched : Bool) :
    Option Signal :=
  match c.settings.protocol with
  | .expressive => do
    let shared ← s.read? plane c.frames
    let sum := own.add shared
    some (if stretched then sum.bipolar else sum)
  | .conventional => some own
  | .continuousTouch => some own

/-- The streams of a voice, the voice after the block, and the scratch. -/
def renderVoice?
    (c : BlockContext)
    (s : Scratch)
    (id : Nat)
    (v : Voice) :
    Option (VoiceSignals × Voice × Scratch) := do
  let (pitch, v) ← c.bentPitch? s v
  let (pitch, v, s) ← c.driftedPitch? s pitch v
  let (gate, gateRamp) := v.gate.render c.frames
  let (velocity, velocityRamp) := v.velocity.render c.frames
  let (aftertouch, v) ← c.aftertouch? s v
  let (modA, ramp1) := v.mod1.render c.frames
  let (modB, ramp2) := v.mod2.render c.frames
  let (modC, ramp3) := v.mod3.render c.frames
  let modA ← c.busMod? s modA (modPlane 0) false
  let modB ← c.busMod? s modB (modPlane 1) c.stretchesMod2
  let modC ← c.busMod? s modC (modPlane 2) true
  some
    ({ pitch := c.tunedPitch pitch
       gate
       velocity
       voice := Signal.constant c.frames (Float32.ofNat id)
       aftertouch
       modA
       modB
       modC },
     { v with
       gate := gateRamp
       velocity := velocityRamp
       mod1 := ramp1
       mod2 := ramp2
       mod3 := ramp3 },
     s)

variable {c : BlockContext} {s : Scratch}

theorem bentPitch?_eq
    (h : c.settings.protocol = .expressive → s.Holds c.frames c.shared)
    (v : Voice) :
    c.bentPitch? s v = some (c.bentPitch v) := by
  unfold bentPitch? bentPitch
  cases hprotocol : c.settings.protocol with
  | conventional => rfl
  | expressive =>
      have hholds := h hprotocol
      have hbend : s.read? bendPlane c.frames = some c.shared.bend :=
        hholds.read?_eq (k := 0) (by omega)
      dsimp only
      rw [hbend]
      unfold channelBend?
      rw [Engine.bind_channelIndex?]
      show (if _ then _ else _ : Option (Signal × Voice)) = _
      split
      case isFalse => rfl
      case isTrue hrange =>
        have hi : v.channel.toNat - 1 < channelCount := by
          unfold channelCount
          omega
        obtain ⟨own, hown⟩ : ∃ own, c.shared.channelBends[v.channel.toNat - 1]? = some own :=
          ⟨_, List.getElem?_eq_getElem (by rw [hholds.channels]; exact hi)⟩
        rw [hholds.channel hi, hown]
        rfl
  | continuousTouch => rfl

/-- The drift takes its way through the scratch without a change. -/
theorem exists_driftedPitch?
    (h : c.settings.protocol = .expressive → s.Holds c.frames c.shared)
    (hframes : c.frames ≤ maxBlock)
    (pitch : Signal) (v : Voice) :
    ∃ after, c.driftedPitch? s pitch v
        = some ((c.driftedPitch pitch v).1, (c.driftedPitch pitch v).2, after)
      ∧ (c.settings.protocol = .expressive → after.Holds c.frames c.shared) := by
  unfold driftedPitch? driftedPitch
  split
  case isFalse => exact ⟨s, rfl, h⟩
  case isTrue =>
    have hsize : (v.drift.render c.frames).1.size = c.frames := Ramp.size_render _ _
    obtain ⟨after, hafter⟩ := s.exists_put?
      (show driftPlane < scratchPlanes by decide)
      (show (v.drift.render c.frames).1.size ≤ maxBlock by omega)
    have hread := Scratch.read?_put?_self hafter
    rw [hsize] at hread
    refine ⟨after, ?_, fun hprotocol => (h hprotocol).put? hafter⟩
    dsimp only
    rw [hafter]
    show (after.read? driftPlane c.frames).bind _ = _
    rw [hread]
    rfl

theorem aftertouch?_eq
    (h : c.settings.protocol = .expressive → s.Holds c.frames c.shared)
    (v : Voice) :
    c.aftertouch? s v = some (c.aftertouch v) := by
  unfold aftertouch? aftertouch
  cases hprotocol : c.settings.protocol with
  | conventional => rfl
  | expressive =>
      have hholds := h hprotocol
      have hpressure : s.read? pressurePlane c.frames = some c.shared.pressure :=
        hholds.read?_eq (k := 1) (by omega)
      dsimp only
      rw [hpressure]
      rfl
  | continuousTouch => rfl

theorem busMod?_eq
    {shared : Signal} {plane : Nat}
    (h : c.settings.protocol = .expressive → s.read? plane c.frames = some shared)
    (own : Signal) (stretched : Bool) :
    c.busMod? s own plane stretched = some (c.busMod own shared stretched) := by
  unfold busMod? busMod
  cases hprotocol : c.settings.protocol with
  | conventional => rfl
  | expressive =>
      dsimp only
      rw [h hprotocol]
      rfl
  | continuousTouch => rfl

/-- Rendering a voice only reads and writes planes that exist. -/
theorem exists_renderVoice?
    (h : c.settings.protocol = .expressive → s.Holds c.frames c.shared)
    (hframes : c.frames ≤ maxBlock)
    (id : Nat) (v : Voice) :
    ∃ after, c.renderVoice? s id v
        = some ((c.renderVoice id v).1, (c.renderVoice id v).2, after)
      ∧ (c.settings.protocol = .expressive → after.Holds c.frames c.shared) := by
  obtain ⟨after, hdrifted, hholds⟩ :=
    exists_driftedPitch? h hframes (c.bentPitch v).1 (c.bentPitch v).2
  have hmod
      {slot : Nat} {shared : Signal}
      (hslot : slot < 3)
      (hshared : c.shared.inOrder[2 + slot]? = some shared)
      (own : Signal) (stretched : Bool) :
      c.busMod? after own (modPlane slot) stretched = some (c.busMod own shared stretched) := by
    refine busMod?_eq (fun hprotocol => ?_) own stretched
    have hplane : bendPlane + (2 + slot) = modPlane slot := by
      unfold bendPlane modPlane
      omega
    rw [← hplane, ← hshared]
    exact (hholds hprotocol).read?_eq (by unfold channelCount; omega)
  refine ⟨after, ?_, hholds⟩
  unfold renderVoice?
  rw [bentPitch?_eq h]
  show (c.driftedPitch? s (c.bentPitch v).1 (c.bentPitch v).2).bind _ = _
  rw [hdrifted]
  show (c.aftertouch? after (c.pitch v).2).bind _ = _
  rw [aftertouch?_eq hholds]
  show (c.busMod? after _ (modPlane 0) false).bind _ = _
  rw [hmod (by omega) rfl]
  show (c.busMod? after _ (modPlane 1) _).bind _ = _
  rw [hmod (by omega) rfl]
  show (c.busMod? after _ (modPlane 2) _).bind _ = _
  rw [hmod (by omega) rfl]
  rfl

end Rendering

end BlockContext

/-- What is in hand while the voices of a block are rendered one after the other. -/
structure Desk where
  /-- The voices, some of them already rendered. -/
  voices : List Voice
  /-- The scratch planes. -/
  scratch : Scratch
  /-- The output buffer. -/
  out : Buffer

namespace Desk

section Rendering

/-- Silences a voice of the buffer. -/
def silence? (d : Desk) (id : Nat) : Option Desk :=
  (d.out.silence? id).map fun out => { d with out }

/-- Renders a voice that plays notes; every other voice of the buffer is silenced. -/
def render? (c : BlockContext) (count : Nat) (d : Desk) (id : Nat) : Option Desk :=
  match d.voices[id]? with
  | none => d.silence? id
  | some v =>
    if id < count then do
      let (signals, v, scratch) ← c.renderVoice? d.scratch id v
      let out ← signals.writeTo? id c.frames d.out
      some { voices := d.voices.set id v, scratch, out }
    else d.silence? id

variable {c : BlockContext} {count : Nat}

/-- The voices after those below `k` have been rendered, if they play notes. -/
def renderedUpTo (c : BlockContext) (count k : Nat) (voices : List Voice) : List Voice :=
  voices.mapIdx fun i v => if i < min count k then (c.renderVoice i v).2 else v

theorem renderedUpTo_zero (c : BlockContext) (count : Nat) (voices : List Voice) :
    renderedUpTo c count 0 voices = voices := by
  apply List.ext_getElem?
  intro i
  simp [renderedUpTo]

theorem getElem?_renderedUpTo_self (c : BlockContext) (count k : Nat) (voices : List Voice) :
    (renderedUpTo c count k voices)[k]? = voices[k]? := by
  simp [renderedUpTo]

/-- A voice that is not there or does not play notes stays as it is. -/
theorem renderedUpTo_succ_of_idle
    {k : Nat} {voices : List Voice}
    (h : count ≤ k ∨ voices[k]? = none) :
    renderedUpTo c count (k + 1) voices = renderedUpTo c count k voices := by
  apply List.ext_getElem?
  intro i
  simp only [renderedUpTo, List.getElem?_mapIdx]
  rcases h with hcount | hnone
  · rw [Nat.min_eq_left hcount, Nat.min_eq_left (by omega)]
  · by_cases hi : i = k
    · subst hi
      simp [hnone]
    · have hiff : i < min count (k + 1) ↔ i < min count k := by
        omega
      simp only [hiff]

theorem renderedUpTo_succ
    {k : Nat} {voices : List Voice} {v : Voice}
    (hk : k < count)
    (hv : voices[k]? = some v) :
    renderedUpTo c count (k + 1) voices
      = (renderedUpTo c count k voices).set k (c.renderVoice k v).2 := by
  apply List.ext_getElem?
  intro i
  simp only [renderedUpTo, List.getElem?_mapIdx, List.getElem?_set, List.length_mapIdx]
  by_cases hi : i = k
  · subst hi
    obtain ⟨hlt, _⟩ := List.getElem?_eq_some_iff.1 hv
    rw [if_pos rfl, if_pos hlt, hv, Option.map_some, if_pos (by omega)]
  · have hiff : i < min count (k + 1) ↔ i < min count k := by
      omega
    have hne : ¬ k = i := fun h => hi h.symm
    simp only [if_neg hne, hiff]

variable {places : Nat} {signals : List VoiceSignals} {out : Buffer}

theorem render?_of_idle
    (c : BlockContext) (d : Desk) {id : Nat}
    (h : count ≤ id ∨ d.voices[id]? = none)
    (hid : id < d.out.voices)
    (hpos : 0 < d.out.frames) :
    d.render? c count id = some { d with out := d.out.silence id } := by
  have hsilence : d.silence? id = some { d with out := d.out.silence id } := by
    rw [silence?, Buffer.silence?_eq hid (Buffer.numbers_of_pos hpos id), Option.map_some]
  unfold render?
  rcases h with hcount | hnone
  · split
    · exact hsilence
    · rw [if_neg (by omega)]
      exact hsilence
  · rw [hnone]
    exact hsilence

theorem exists_render?
    (d : Desk) {id : Nat} {v : Voice}
    (hholds : c.settings.protocol = .expressive → d.scratch.Holds c.frames c.shared)
    (hblock : c.frames ≤ maxBlock)
    (hcount : id < count)
    (hv : d.voices[id]? = some v)
    (hid : id < d.out.voices)
    (hframes : c.frames ≤ d.out.frames) :
    ∃ after, d.render? c count id
        = some
          { voices := d.voices.set id (c.renderVoice id v).2
            scratch := after
            out := (c.renderVoice id v).1.writeTo id d.out }
      ∧ (c.settings.protocol = .expressive → after.Holds c.frames c.shared) := by
  obtain ⟨after, hrender, hafter⟩ := BlockContext.exists_renderVoice? hholds hblock id v
  have hwrite := (c.renderVoice id v).1.writeTo?_eq hid hframes
  refine ⟨after, ?_, hafter⟩
  simp only [render?, hv, if_pos hcount, hrender, hwrite, Option.bind_eq_bind, Option.bind_some]

/--
Rendering the first voices one after the other only looks at places that exist, and
does what rendering them at once does.
-/
theorem exists_foldlM_render?
    {voices : List Voice} {s : Scratch}
    (hholds : c.settings.protocol = .expressive → s.Holds c.frames c.shared)
    (hblock : c.frames ≤ maxBlock)
    (hframes : c.frames ≤ out.frames)
    (hpos : 0 < out.frames)
    (hsignals : ∀ id < out.voices, signals[id]?
      = if id < count then voices[id]?.map fun v => (c.renderVoice id v).1 else none) :
    ∀ k ≤ out.voices, ∃ d,
      (List.range k).foldlM (render? c count) { voices, scratch := s, out } = some d
        ∧ d.voices = renderedUpTo c count k voices
        ∧ d.out = (List.range k).foldl (Buffer.putVoice signals) out
        ∧ (c.settings.protocol = .expressive → d.scratch.Holds c.frames c.shared) := by
  intro k
  induction k with
  | zero =>
      intro _
      exact ⟨_, rfl, (renderedUpTo_zero c count voices).symm, rfl, hholds⟩
  | succ k ih =>
      intro hk
      obtain ⟨d, hfold, hvoices, hout, hd⟩ := ih (by omega)
      obtain ⟨hplaces, hlength⟩ := Buffer.shape_foldl_putVoice signals (List.range k) out
      rw [← hout] at hplaces hlength
      have hown := hsignals k hk
      have hget : d.voices[k]? = voices[k]? := by
        rw [hvoices, getElem?_renderedUpTo_self]
      rw [List.range_succ, List.foldlM_append, hfold, List.foldl_append, ← hout]
      simp only [List.foldlM_cons, List.foldlM_nil, List.foldl_cons, List.foldl_nil,
        Option.bind_eq_bind, Option.bind_some, Buffer.putVoice]
      by_cases hplays : k < count ∧ ∃ v, voices[k]? = some v
      · obtain ⟨hcount, v, hv⟩ := hplays
        obtain ⟨after, hrender, hafter⟩ := exists_render? d hd hblock hcount (hget.trans hv)
          (by omega) (by omega)
        rw [if_pos hcount, hv, Option.map_some] at hown
        refine ⟨_, by rw [hrender]; rfl, ?_, ?_, hafter⟩
        · rw [renderedUpTo_succ hcount hv, hvoices]
        · rw [hown]
      · have hidle : count ≤ k ∨ voices[k]? = none := by
          rcases Nat.lt_or_ge k count with hcount | hcount
          · exact .inr (Option.eq_none_iff_forall_ne_some.2 fun v hv => hplays ⟨hcount, v, hv⟩)
          · exact .inl hcount
        have hnone : signals[k]? = none := by
          rw [hown]
          rcases hidle with hcount | hv
          · rw [if_neg (by omega)]
          · simp [hv]
        have hrender := render?_of_idle c d (hidle.imp_right hget.trans) (by omega) (by omega)
        refine ⟨{ d with out := d.out.silence k }, by rw [hrender]; rfl, ?_, ?_, hd⟩
        · rw [renderedUpTo_succ_of_idle hidle, ← hvoices]
        · rw [hnone]

end Rendering

end Desk

end Polyphony
