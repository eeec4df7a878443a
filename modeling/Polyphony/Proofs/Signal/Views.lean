import Polyphony.Proofs.Signal.Planes

/-!
# The views of a buffer

The samples of a buffer are reached in three ways: by voice and stream, by the
number of a plane, and by a position among all samples of a voice.  The three ways
lead to the same places, and no two samples share a place.

**Cells.**  A cell is a frame of a stream of a voice.  It shows a value if that value
is read there by voice and stream as well as by the number of the plane.

**Results.**
* `Cell.ext_of_place`: different cells of a buffer have different places.
* `Cell.Within.shows_iff`: both ways of reading a cell lead to its place.
* `Cell.Within.setPlane?_eq`, `Cell.Within.setVoice?_eq`: all ways of writing to a cell
  write to its place.
* `sample_write`: what is written to a cell is found there and nowhere else.
* `voice?_eq`: all samples of a voice are its streams, one behind the other.
* `views_agree`: the three ways of reaching a sample, put together.
-/

namespace Polyphony

namespace Buffer

/-- A frame of a stream of a voice. -/
structure Cell where
  voice : Nat
  stream : Stream
  frame : Nat
deriving DecidableEq

section Reading

/-- The sample at a frame of a stream of a voice. -/
def streamSample? (b : Buffer) (voice : Nat) (s : Stream) (frame : Nat) : Option Float32 :=
  (b.stream? voice s).bind fun signal => signal[frame]?

/-- The sample at a frame of a plane. -/
def planeSample? (b : Buffer) (plane frame : Nat) : Option Float32 :=
  (b.plane? plane).bind fun signal => signal[frame]?

/-- A value is found in a cell, by voice and stream and by the number of the plane. -/
structure Shows (b : Buffer) (c : Cell) (value : Float32) : Prop where
  stream : b.streamSample? c.voice c.stream c.frame = some value
  plane : b.planeSample? (planeOf c.voice c.stream) c.frame = some value

/-- A buffer has a cell. -/
structure Cell.Within (c : Cell) (b : Buffer) : Prop where
  voice : c.voice < b.voices
  frame : c.frame < b.frames

/-- The place of a cell among all samples. -/
def Cell.place (c : Cell) (b : Buffer) : Nat :=
  b.planeStart (planeOf c.voice c.stream) + c.frame

variable {b : Buffer} {c d : Cell}

theorem Cell.Within.place_lt
    (h : c.Within b) :
    c.place b < b.samples.size :=
  position_lt h.voice h.frame

/-- The place of a cell, counted in planes, is its plane. -/
theorem Cell.Within.place_div
    (h : c.Within b) :
    c.place b / b.frames = planeOf c.voice c.stream := by
  have hpos : 0 < b.frames := Nat.zero_lt_of_lt h.frame
  unfold place planeStart
  rw [Nat.mul_comm, Nat.mul_add_div hpos, Nat.div_eq_of_lt h.frame, Nat.add_zero]

/-- Cells of a buffer with one place are one cell. -/
theorem Cell.ext_of_place
    (hc : c.Within b)
    (hd : d.Within b)
    (h : c.place b = d.place b) :
    c = d := by
  have hplane : planeOf c.voice c.stream = planeOf d.voice d.stream := by
    rw [← hc.place_div, h, hd.place_div]
  obtain ⟨voice, s, frame⟩ := c
  obtain ⟨voice', s', frame'⟩ := d
  obtain ⟨rfl, rfl⟩ := planeOf_inj hplane
  have hframe : frame = frame' := Nat.add_left_cancel h
  rw [hframe]

/-- By voice and stream a cell is read at its place. -/
theorem Cell.Within.streamSample?_eq
    (h : c.Within b) :
    b.streamSample? c.voice c.stream c.frame = b.sample c.voice c.stream c.frame := by
  obtain ⟨signal, hstream, hread⟩ := getElem?_stream? c.stream h.voice (Nat.zero_lt_of_lt h.frame)
  rw [streamSample?, hstream, Option.bind_some, hread c.frame h.frame]

/-- By the number of its plane a cell is read at its place. -/
theorem Cell.Within.planeSample?_eq
    (h : c.Within b) :
    b.planeSample? (planeOf c.voice c.stream) c.frame = b.sample c.voice c.stream c.frame := by
  have hnumbers := numbers_of_pos (Nat.zero_lt_of_lt h.frame) c.voice
  rw [planeSample?, ← stream?_eq_plane? hnumbers]
  exact h.streamSample?_eq

/-- A cell shows the sample at its place. -/
theorem Cell.Within.shows_iff
    (h : c.Within b)
    {value : Float32} :
    b.Shows c value ↔ b.sample c.voice c.stream c.frame = some value := by
  constructor
  · intro hshows
    rw [← h.streamSample?_eq]
    exact hshows.stream
  · intro hvalue
    exact ⟨h.streamSample?_eq.trans hvalue, h.planeSample?_eq.trans hvalue⟩

/-- Every cell of a buffer shows a value. -/
theorem Cell.Within.exists_shows
    (h : c.Within b) :
    ∃ value, b.Shows c value :=
  ⟨_, h.shows_iff.2 (Array.getElem?_eq_getElem h.place_lt)⟩

end Reading

section Cells

variable {b : Buffer} {c d : Cell}

/-- By the number of its plane a cell is written to at its place. -/
theorem Cell.Within.setPlane?_eq
    (h : c.Within b)
    (value : Float32) :
    b.setPlane? (planeOf c.voice c.stream) c.frame value = some (b.write (c.place b) [value]) :=
  if_pos ⟨contains_plane h.voice c.stream, h.frame⟩

/-- By its position among the samples of its voice a cell is written to at its place. -/
theorem Cell.Within.setVoice?_eq
    (h : c.Within b)
    (value : Float32) :
    b.setVoice? c.voice (c.stream.index * b.frames + c.frame) value
      = some (b.write (c.place b) [value]) := by
  have hplace : b.voiceStart c.voice + (c.stream.index * b.frames + c.frame) = c.place b := by
    unfold Cell.place planeStart planeOf voiceStart
    rw [Nat.add_mul, Nat.add_assoc]
  have hposition : c.stream.index * b.frames + c.frame < b.voiceLength := by
    have hmul : (c.stream.index + 1) * b.frames ≤ streamCount * b.frames :=
      Nat.mul_le_mul_right _ c.stream.index_lt
    have hframe := h.frame
    rw [Nat.add_mul, Nat.one_mul] at hmul
    unfold voiceLength
    omega
  unfold setVoice? setInRun?
  rw [if_pos ⟨contains_voice h.voice, hposition⟩, hplace]

/-- What is written to a cell is found there and nowhere else. -/
theorem sample_write
    (hc : c.Within b)
    (hd : d.Within b)
    (value : Float32) :
    (b.write (c.place b) [value]).sample d.voice d.stream d.frame
      = if d = c then some value else b.sample d.voice d.stream d.frame := by
  show (b.samples.setIfInBounds (c.place b) value)[d.place b]? = _
  by_cases heq : d = c
  · subst heq
    rw [if_pos rfl, Array.getElem?_setIfInBounds_self_of_lt hd.place_lt]
  · have hne : c.place b ≠ d.place b := fun h => heq (Cell.ext_of_place hd hc h.symm)
    rw [if_neg heq, Array.getElem?_setIfInBounds_ne hne]
    rfl

end Cells

section Joining

variable {b : Buffer} {voice : Nat}

/-- Neighbouring runs of one length, one behind the other, are one run. -/
theorem foldl_append_extract
    (samples : Array Float32)
    (start length count : Nat) :
    ((List.range count).map fun k =>
        samples.extract (start + k * length) (start + k * length + length)).foldl (· ++ ·) #[]
      = samples.extract start (start + count * length) := by
  induction count with
  | zero =>
      rw [Nat.zero_mul, Nat.add_zero, Array.extract_eq_empty_of_le (Nat.min_le_left _ _)]
      rfl
  | succ count ih =>
      rw [List.range_succ, List.map_append, List.foldl_append, ih, List.map_singleton,
        List.foldl_cons, List.foldl_nil, Array.extract_append_extract, Nat.succ_mul]
      congr 1 <;> omega

/-- All samples of a voice are its streams, one behind the other. -/
theorem voice?_eq
    (hvoice : voice < b.voices)
    (hnumbers : b.Numbers voice) :
    ∃ streams, Stream.all.mapM (b.stream? voice) = some streams
      ∧ b.voice? voice = some (streams.foldl (· ++ ·) #[]) := by
  have hstream (s : Stream) :
      b.stream? voice s
        = some (b.samples.extract (b.voiceStart voice + s.index * b.frames)
            (b.voiceStart voice + s.index * b.frames + b.frames)) := by
    rw [stream?_eq_plane? hnumbers, plane?_eq hvoice]
    unfold planeStart planeOf voiceStart
    rw [Nat.add_mul]
  have hstreams :
      Stream.all.mapM (b.stream? voice)
        = some (Stream.all.map fun s =>
            b.samples.extract (b.voiceStart voice + s.index * b.frames)
              (b.voiceStart voice + s.index * b.frames + b.frames)) := by
    rw [funext hstream]
    exact List.mapM_pure
  refine ⟨_, hstreams, ?_⟩
  have hindex : Stream.all.map Stream.index = List.range streamCount := by
    decide
  have hrun := foldl_append_extract b.samples (b.voiceStart voice) b.frames streamCount
  rw [← hindex, List.map_map] at hrun
  unfold voice? run?
  rw [if_pos hnumbers, if_pos (contains_voice hvoice)]
  exact congrArg some hrun.symm

end Joining

section Agreement

variable {b after : Buffer}

/-- A buffer with one value in some cells, and with what it showed before in all others. -/
structure Replaces (b after : Buffer) (picked : Cell → Prop) (value : Float32) : Prop where
  voices : after.voices = b.voices
  frames : after.frames = b.frames
  replaced : ∀ c : Cell, c.Within b → picked c → after.Shows c value
  kept : ∀ c : Cell, c.Within b → ¬ picked c → ∀ old, b.Shows c old → after.Shows c old

theorem Replaces.of_sample
    {picked : Cell → Prop} [DecidablePred picked] {value : Float32}
    (hvoices : after.voices = b.voices)
    (hframes : after.frames = b.frames)
    (h : ∀ c : Cell, c.Within b → after.sample c.voice c.stream c.frame
      = if picked c then some value else b.sample c.voice c.stream c.frame) :
    b.Replaces after picked value := by
  have hwithin {c : Cell} (hc : c.Within b) : c.Within after :=
    ⟨hvoices.symm ▸ hc.voice, hframes.symm ▸ hc.frame⟩
  refine ⟨hvoices, hframes, fun c hc hpicked => ?_, fun c hc hpicked old hold => ?_⟩
  · rw [(hwithin hc).shows_iff, h c hc, if_pos hpicked]
  · rw [(hwithin hc).shows_iff, h c hc, if_neg hpicked]
    exact hc.shows_iff.1 hold

theorem replaces_write
    {c : Cell}
    (hc : c.Within b)
    (value : Float32) :
    b.Replaces (b.write (c.place b) [value]) (· = c) value :=
  .of_sample rfl rfl fun _ hd => sample_write hc hd value

theorem replaces_silence (b : Buffer) (voice : Nat) :
    b.Replaces (b.silence voice) (·.voice = voice) 0.0 := by
  refine .of_sample rfl rfl fun c hc => ?_
  rw [sample_silence hc.voice hc.frame]
  simp only [eq_comm]

/-- A buffer of this shape can be made; what is written to it later keeps the shape. -/
def IsMade (b : Buffer) : Prop :=
  ∃ fresh, silent? b.voices b.frames = some fresh

theorem isMade_of_silent?
    {voices frames : Nat}
    (h : silent? voices frames = some b) :
    b.IsMade := by
  unfold silent? filled? at h
  split at h
  case isTrue hfits =>
    cases h
    exact ⟨_, if_pos hfits⟩
  case isFalse => cases h

theorem IsMade.replaced
    {picked : Cell → Prop} {value : Float32}
    (hmade : b.IsMade)
    (h : b.Replaces after picked value) :
    after.IsMade := by
  unfold IsMade
  rw [h.voices, h.frames]
  exact hmade

/-- In a buffer that is made, the planes of every voice have numbers. -/
theorem IsMade.numbers
    (hmade : b.IsMade)
    {voice : Nat}
    (hvoice : voice < b.voices) :
    b.Numbers voice := by
  obtain ⟨fresh, hfresh⟩ := hmade
  unfold silent? filled? at hfresh
  split at hfresh
  case isTrue hfits =>
    have hmul : voice * streamCount ≤ b.voices * streamCount :=
      Nat.mul_le_mul_right _ (Nat.le_of_lt hvoice)
    exact fun _ => Nat.le_trans hmul hfits.1
  case isFalse => cases hfresh

/-- In whatever way the samples of a buffer are reached, they are the same ones. -/
structure ViewsAgree (b : Buffer) : Prop where
  /-- The planes are those of the streams of the voices. -/
  covered : ∀ plane < b.planes, ∃ voice < b.voices, ∃ s, planeOf voice s = plane
  /-- Every cell is read, in both ways alike. -/
  shown : ∀ c : Cell, c.Within b → ∃ value, b.Shows c value
  /-- In all three ways a cell is written to alike, and it alone. -/
  written : ∀ c : Cell, c.Within b → ∀ value, ∃ after,
    b.setStream? c.voice c.stream c.frame value = some after
    ∧ b.setPlane? (c.voice * streamCount + c.stream.index) c.frame value = some after
    ∧ b.setVoice? c.voice (c.stream.index * b.frames + c.frame) value = some after
    ∧ b.Replaces after (· = c) value
  /-- All samples of a voice are its streams in output order, one behind the other. -/
  joined : ∀ voice < b.voices, ∃ streams,
    Stream.all.mapM (b.stream? voice) = some streams
    ∧ b.voice? voice = some (streams.foldl (· ++ ·) #[])
  /-- Silencing a voice leaves zero in its cells, and in them alone. -/
  silenced : ∀ voice < b.voices, ∃ after,
    b.silence? voice = some after ∧ b.Replaces after (·.voice = voice) 0.0

/--
The streams, the planes and the voices of a buffer are views of the same samples: a
value that is written through one of them is read through all of them, in its cell
and in no other.
-/
theorem views_agree
    (hmade : b.IsMade) :
    b.ViewsAgree where
  covered := fun _ hplane => exists_planeOf_eq hplane
  shown := fun _ hc => hc.exists_shows
  written := fun _ hc value =>
    ⟨_, hc.setPlane?_eq value, hc.setPlane?_eq value, hc.setVoice?_eq value,
      replaces_write hc value⟩
  joined := fun _ hvoice => voice?_eq hvoice (hmade.numbers hvoice)
  silenced := fun voice hvoice =>
    ⟨_, silence?_eq hvoice (hmade.numbers hvoice), b.replaces_silence voice⟩

/-- What is written to the second voice stays when the first one is silenced. -/
theorem views_agree_secondVoice :
    (silent 2 3).IsMade
      ∧ ∃ after quiet, (silent 2 3).setVoice? 1 (2 * 3 + 1) 0.5 = some after
        ∧ after.streamSample? 1 .velocity 1 = some 0.5
        ∧ after.planeSample? 10 1 = some 0.5
        ∧ after.planeSample? 10 2 = some 0.0
        ∧ after.silence? 0 = some quiet
        ∧ quiet.planeSample? 2 1 = some 0.0
        ∧ quiet.planeSample? 10 1 = some 0.5 := by
  have hsilent : silent? 2 3 = some (silent 2 3) := rfl
  have hmade : (silent 2 3).IsMade := isMade_of_silent? hsilent
  have hwithin (voice : Fin 2) (frame : Fin 3) :
      (⟨voice, .velocity, frame⟩ : Cell).Within (silent 2 3) :=
    ⟨voice.isLt, frame.isLt⟩
  obtain ⟨after, -, -, hset, hwritten⟩ :=
    (views_agree hmade).written ⟨1, .velocity, 1⟩ (hwithin 1 1) 0.5
  have hshows := hwritten.replaced _ (hwithin 1 1) rfl
  have hnext := hwritten.kept ⟨1, .velocity, 2⟩ (hwithin 1 2) (by decide) 0.0 ⟨rfl, rfl⟩
  have hwithin' (voice : Fin 2) (frame : Fin 3) :
      (⟨voice, .velocity, frame⟩ : Cell).Within after :=
    ⟨hwritten.voices.symm ▸ voice.isLt, hwritten.frames.symm ▸ frame.isLt⟩
  obtain ⟨quiet, hquiet, hsilenced⟩ :=
    (views_agree (hmade.replaced hwritten)).silenced 0 (hwithin' 0 0).voice
  have hzero := hsilenced.replaced _ (hwithin' 0 1) rfl
  have hstays := hsilenced.kept _ (hwithin' 1 1) (by decide) 0.5 hshows
  exact ⟨hmade, after, quiet, hset, hshows.stream, hshows.plane, hnext.plane, hquiet,
    hzero.plane, hstays.plane⟩

end Agreement

end Buffer
end Polyphony
