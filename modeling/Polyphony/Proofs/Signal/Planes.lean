import Polyphony.Engine.Output

/-!
# Reading an output buffer back

The planes of a buffer do not overlap, so what is written over the beginning of
one stream is found there and nowhere else.

**Results.**
* `getElem?_stream?`: a plane that is read holds the samples of its stream.
* `stream?_putVoices`: after a block, the streams of a voice hold its signals, and
  the streams of every voice without signals are silent.
-/

namespace Polyphony

section Overwriting

theorem getElem?_overwrite (xs : List Float32) :
    ∀ (i : Nat) (samples : Array Float32) (j : Nat),
      j < samples.size →
      (overwrite xs i samples)[j]?
        = if i ≤ j ∧ j < i + xs.length then xs[j - i]? else samples[j]? := by
  induction xs with
  | nil =>
      intro i samples j _
      have hempty : ¬ (i ≤ j ∧ j < i + ([] : List Float32).length) := by
        rintro ⟨hle, hlt⟩
        rw [List.length_nil] at hlt
        omega
      rw [if_neg hempty]
      rfl
  | cons x xs ih =>
      intro i samples j hj
      show (overwrite xs (i + 1) (samples.setIfInBounds i x))[j]? = _
      rw [ih (i + 1) _ j (by simpa using hj), List.length_cons]
      by_cases heq : j = i
      · subst heq
        rw [if_neg (by omega), if_pos (by omega), Nat.sub_self, List.getElem?_cons_zero,
          Array.getElem?_setIfInBounds_self_of_lt hj]
      · by_cases hin : i + 1 ≤ j ∧ j < i + 1 + xs.length
        · have hin' : i ≤ j ∧ j < i + (xs.length + 1) := by
            omega
          have hsub : j - i = (j - (i + 1)) + 1 := by
            omega
          rw [if_pos hin, if_pos hin', hsub, List.getElem?_cons_succ]
        · have hin' : ¬ (i ≤ j ∧ j < i + (xs.length + 1)) := by
            omega
          have hne : i ≠ j := fun h => heq h.symm
          rw [if_neg hin, if_neg hin', Array.getElem?_setIfInBounds_ne hne]

end Overwriting

/-- Every place in output order is one of a stream. -/
theorem Stream.exists_index_eq
    {k : Nat}
    (h : k < streamCount) :
    ∃ s : Stream, s.index = k := by
  have hall : ∀ k : Fin streamCount, ∃ s ∈ Stream.all, s.index = k.val := by
    decide
  obtain ⟨s, _, hs⟩ := hall ⟨k, h⟩
  exact ⟨s, hs⟩

namespace Buffer

section Samples

/-- A sample of a stream of a voice. -/
def sample (b : Buffer) (voice : Nat) (s : Stream) (j : Nat) : Option Float32 :=
  b.samples[b.planeStart (planeOf voice s) + j]?

/-- A run that covers some of the planes from `p` on does not touch other planes. -/
theorem not_in_planes
    {frames p q k j len : Nat}
    (hlen : len ≤ k * frames)
    (hj : j < frames)
    (hq : q < p ∨ p + k ≤ q) :
    ¬ (p * frames ≤ q * frames + j ∧ q * frames + j < p * frames + len) := by
  rintro ⟨hle, hlt⟩
  rcases hq with hbefore | hbehind
  · have hmul : (q + 1) * frames ≤ p * frames := Nat.mul_le_mul_right _ hbefore
    rw [Nat.add_mul, Nat.one_mul] at hmul
    omega
  · have hmul : (p + k) * frames ≤ q * frames := Nat.mul_le_mul_right _ hbehind
    rw [Nat.add_mul] at hmul
    omega

theorem planeOf_inj
    {voice voice' : Nat} {s s' : Stream}
    (h : planeOf voice s = planeOf voice' s') :
    voice = voice' ∧ s = s' := by
  unfold planeOf streamCount at h
  have hs := s.index_lt
  have hs' := s'.index_lt
  unfold streamCount at hs hs'
  have hvoice : voice = voice' := by
    omega
  have hindex : s.index = s'.index := by
    omega
  have hstream : some s = some s' := by
    rw [← s.all_getElem?_index, ← s'.all_getElem?_index, hindex]
  exact ⟨hvoice, Option.some.inj hstream⟩

/-- Every plane is that of a stream of a voice. -/
theorem exists_planeOf_eq
    {plane voices : Nat}
    (h : plane < voices * streamCount) :
    ∃ voice < voices, ∃ s, planeOf voice s = plane := by
  have hpos : 0 < streamCount := by
    decide
  obtain ⟨s, hs⟩ := Stream.exists_index_eq (Nat.mod_lt plane hpos)
  refine ⟨plane / streamCount, (Nat.div_lt_iff_lt_mul hpos).2 h, s, ?_⟩
  unfold planeOf
  rw [hs, Nat.div_add_mod']

/-- The streams of a voice of the buffer lie within it. -/
theorem contains_plane
    {b : Buffer} {voice : Nat}
    (hvoice : voice < b.voices)
    (s : Stream) :
    b.Contains (b.planeStart (planeOf voice s)) b.frames := by
  have hs := s.index_lt
  have hplane : planeOf voice s + 1 ≤ b.voices * streamCount := by
    have hmul : (voice + 1) * streamCount ≤ b.voices * streamCount :=
      Nat.mul_le_mul_right _ hvoice
    rw [Nat.add_mul, Nat.one_mul] at hmul
    unfold planeOf
    omega
  have hmul : (planeOf voice s + 1) * b.frames ≤ b.voices * streamCount * b.frames :=
    Nat.mul_le_mul_right _ hplane
  rw [Nat.add_mul, Nat.one_mul] at hmul
  unfold Contains planeStart
  rw [b.size_eq]
  exact hmul

/-- The samples of a stream of a voice lie within the buffer. -/
theorem position_lt
    {b : Buffer} {voice : Nat} {s : Stream} {j : Nat}
    (hvoice : voice < b.voices)
    (hj : j < b.frames) :
    b.planeStart (planeOf voice s) + j < b.samples.size := by
  have hcontains : b.planeStart (planeOf voice s) + b.frames ≤ b.samples.size :=
    contains_plane hvoice s
  omega

/-- Where there are frames, the planes of every voice have numbers. -/
theorem numbers_of_pos
    {b : Buffer}
    (hframes : 0 < b.frames)
    (voice : Nat) :
    b.Numbers voice := by
  intro hzero
  omega

/-- A plane is a run of samples. -/
theorem plane?_eq
    {b : Buffer} {voice : Nat}
    (hvoice : voice < b.voices)
    (s : Stream) :
    b.plane? (planeOf voice s)
      = some (b.samples.extract (b.planeStart (planeOf voice s))
          (b.planeStart (planeOf voice s) + b.frames)) :=
  if_pos (contains_plane hvoice s)

/-- A stream of a voice is the plane of that number. -/
theorem stream?_eq_plane?
    {b : Buffer} {voice : Nat}
    (hnumbers : b.Numbers voice)
    (s : Stream) :
    b.stream? voice s = b.plane? (planeOf voice s) :=
  if_pos hnumbers

/-- A plane that is read holds the samples of its stream. -/
theorem getElem?_stream?
    {b : Buffer} {voice : Nat} (s : Stream)
    (hvoice : voice < b.voices)
    (hframes : 0 < b.frames) :
    ∃ plane, b.stream? voice s = some plane
      ∧ ∀ j < b.frames, plane[j]? = b.sample voice s j := by
  have hnumbers := numbers_of_pos hframes voice
  refine ⟨_, (stream?_eq_plane? hnumbers s).trans (plane?_eq hvoice s), ?_⟩
  intro j hj
  have hlt := position_lt (s := s) hvoice hj
  rw [Array.getElem?_extract, if_pos (by omega)]
  rfl

theorem sample_putStream
    {b : Buffer} {voice voice' : Nat} {s s' : Stream} {signal : Signal} {j : Nat}
    (hvoice : voice < b.voices)
    (hj : j < b.frames)
    (hsize : signal.size ≤ b.frames) :
    (b.putStream voice' s' signal).sample voice s j
      = if voice' = voice ∧ s' = s ∧ j < signal.size then signal[j]?
        else b.sample voice s j := by
  have hlt := position_lt (s := s) hvoice hj
  show (overwrite signal.toList (b.planeStart (planeOf voice' s')) b.samples)[
    b.planeStart (planeOf voice s) + j]? = _
  rw [getElem?_overwrite _ _ _ _ hlt, Array.length_toList]
  unfold planeStart
  by_cases hplane : planeOf voice' s' = planeOf voice s
  · obtain ⟨hv, hs⟩ := planeOf_inj hplane
    subst hv
    subst hs
    by_cases hin : j < signal.size
    · rw [if_pos ⟨Nat.le_add_right _ _, Nat.add_lt_add_left hin _⟩, if_pos ⟨rfl, rfl, hin⟩,
        Nat.add_sub_cancel_left, Array.getElem?_toList]
    · rw [if_neg fun h => hin (Nat.lt_of_add_lt_add_left h.2), if_neg fun h => hin h.2.2]
      rfl
  · have hlen : signal.size ≤ 1 * b.frames := by
      omega
    have hout : ¬ (planeOf voice' s' * b.frames ≤ planeOf voice s * b.frames + j
        ∧ planeOf voice s * b.frames + j < planeOf voice' s' * b.frames + signal.size) :=
      not_in_planes hlen hj (by omega)
    have hother : ¬ (voice' = voice ∧ s' = s ∧ j < signal.size) := by
      rintro ⟨rfl, rfl, _⟩
      exact hplane rfl
    rw [if_neg hout, if_neg hother]
    rfl

theorem sample_silence
    {b : Buffer} {voice voice' : Nat} {s : Stream} {j : Nat}
    (hvoice : voice < b.voices)
    (hj : j < b.frames) :
    (b.silence voice').sample voice s j
      = if voice' = voice then some 0.0 else b.sample voice s j := by
  have hlt := position_lt (s := s) hvoice hj
  have hs := s.index_lt
  show (overwrite (List.replicate b.voiceLength 0.0) (b.voiceStart voice') b.samples)[
    b.planeStart (planeOf voice s) + j]? = _
  rw [getElem?_overwrite _ _ _ _ hlt, List.length_replicate]
  by_cases heq : voice' = voice
  · subst heq
    have hin : b.voiceStart voice' ≤ b.planeStart (planeOf voice' s) + j
        ∧ b.planeStart (planeOf voice' s) + j < b.voiceStart voice' + b.voiceLength := by
      have hmul : (s.index + 1) * b.frames ≤ streamCount * b.frames :=
        Nat.mul_le_mul_right _ hs
      rw [Nat.add_mul, Nat.one_mul] at hmul
      unfold voiceStart planeStart planeOf voiceLength
      rw [Nat.add_mul]
      omega
    rw [if_pos hin, if_pos rfl, List.getElem?_replicate, if_pos (by omega)]
  · have hout : ¬ (b.voiceStart voice' ≤ b.planeStart (planeOf voice s) + j
        ∧ b.planeStart (planeOf voice s) + j < b.voiceStart voice' + b.voiceLength) := by
      refine not_in_planes (k := streamCount) (Nat.le_refl _) hj ?_
      unfold planeOf
      rcases Nat.lt_or_gt_of_ne heq with hbelow | habove
      · have hmul : (voice' + 1) * streamCount ≤ voice * streamCount :=
          Nat.mul_le_mul_right _ hbelow
        rw [Nat.add_mul, Nat.one_mul] at hmul
        omega
      · have hmul : (voice + 1) * streamCount ≤ voice' * streamCount :=
          Nat.mul_le_mul_right _ habove
        rw [Nat.add_mul, Nat.one_mul] at hmul
        omega
    rw [if_neg hout, if_neg heq]
    rfl

theorem silence?_eq
    {b : Buffer} {voice : Nat}
    (hvoice : voice < b.voices)
    (hnumbers : b.Numbers voice) :
    b.silence? voice = some (b.silence voice) := by
  unfold silence? fillVoice? fillRun?
  rw [if_pos hnumbers, if_pos (contains_voice hvoice)]
  rfl

section Writing

variable {signals : VoiceSignals} {voice voice' j : Nat} {s : Stream}

theorem shape_foldl_putStream (streams : List Stream) (b : Buffer) :
    (streams.foldl (fun b s => b.putStream voice s (signals.get s)) b).voices = b.voices
      ∧ (streams.foldl (fun b s => b.putStream voice s (signals.get s)) b).frames
          = b.frames := by
  induction streams generalizing b with
  | nil => exact ⟨rfl, rfl⟩
  | cons s streams ih => exact ih (b.putStream voice s (signals.get s))

theorem sample_foldl_putStream
    (streams : List Stream)
    {b : Buffer}
    (hvoice : voice < b.voices)
    (hj : j < b.frames)
    (hsize : ∀ s, (signals.get s).size ≤ b.frames) :
    (streams.foldl (fun b s => b.putStream voice' s (signals.get s)) b).sample voice s j
      = if voice' = voice ∧ s ∈ streams ∧ j < (signals.get s).size then (signals.get s)[j]?
        else b.sample voice s j := by
  induction streams generalizing b with
  | nil =>
      rw [if_neg fun h => by simp at h]
      rfl
  | cons first streams ih =>
      have hrest := ih (b := b.putStream voice' first (signals.get first)) hvoice hj hsize
      rw [List.foldl_cons, hrest, sample_putStream hvoice hj (hsize first)]
      by_cases hin : voice' = voice ∧ s ∈ streams ∧ j < (signals.get s).size
      · rw [if_pos hin, if_pos ⟨hin.1, List.mem_cons_of_mem _ hin.2.1, hin.2.2⟩]
      · rw [if_neg hin]
        by_cases hfirst : voice' = voice ∧ first = s ∧ j < (signals.get first).size
        · obtain ⟨hv, rfl, hlt⟩ := hfirst
          rw [if_pos ⟨hv, rfl, hlt⟩, if_pos ⟨hv, List.mem_cons_self, hlt⟩]
        · rw [if_neg hfirst]
          refine (if_neg ?_).symm
          rintro ⟨hv, hmem, hlt⟩
          rcases List.mem_cons.1 hmem with rfl | hmem
          · exact hfirst ⟨hv, rfl, hlt⟩
          · exact hin ⟨hv, hmem, hlt⟩

/-- Writing the streams of a voice. -/
theorem sample_writeTo
    {b : Buffer}
    (hvoice : voice < b.voices)
    (hj : j < b.frames)
    (hsize : ∀ s, (signals.get s).size ≤ b.frames) :
    (signals.writeTo voice' b).sample voice s j
      = if voice' = voice ∧ j < (signals.get s).size then (signals.get s)[j]?
        else b.sample voice s j := by
  have hall : s ∈ Stream.all := by
    cases s <;> decide
  unfold VoiceSignals.writeTo
  rw [sample_foldl_putStream Stream.all hvoice hj hsize]
  simp only [hall, true_and]

end Writing

/-- What a voice has at a sample after a block: its signal, or silence. -/
def written
    (signals : List VoiceSignals)
    (voice : Nat) (s : Stream) (j : Nat)
    (before : Option Float32) :
    Option Float32 :=
  match signals[voice]? with
  | some own => if j < (own.get s).size then (own.get s)[j]? else before
  | none => some 0.0

theorem written_written
    (signals : List VoiceSignals)
    (voice : Nat) (s : Stream) (j : Nat)
    (before : Option Float32) :
    written signals voice s j (written signals voice s j before)
      = written signals voice s j before := by
  unfold written
  cases signals[voice]? with
  | none => rfl
  | some own =>
      dsimp only
      split
      · rfl
      · rfl

theorem shape_putVoice (signals : List VoiceSignals) (b : Buffer) (voice : Nat) :
    (b.putVoice signals voice).voices = b.voices
      ∧ (b.putVoice signals voice).frames = b.frames := by
  unfold putVoice
  split
  · exact shape_foldl_putStream Stream.all b
  · exact ⟨rfl, rfl⟩

theorem sample_putVoice
    {signals : List VoiceSignals} {b : Buffer} {voice voice' j : Nat} {s : Stream}
    (hvoice : voice < b.voices)
    (hj : j < b.frames)
    (hsize : ∀ own ∈ signals, ∀ s, (own.get s).size ≤ b.frames) :
    (b.putVoice signals voice').sample voice s j
      = if voice' = voice then written signals voice s j (b.sample voice s j)
        else b.sample voice s j := by
  unfold putVoice written
  cases hown : signals[voice']? with
  | some own =>
      have hmem : own ∈ signals := List.mem_of_getElem? hown
      rw [sample_writeTo hvoice hj (hsize own hmem)]
      by_cases heq : voice' = voice
      · subst heq
        rw [if_pos rfl, hown]
        simp only [true_and]
      · rw [if_neg heq, if_neg fun h => heq h.1]
  | none =>
      dsimp only
      rw [sample_silence hvoice hj]
      by_cases heq : voice' = voice
      · subst heq
        rw [if_pos rfl, if_pos rfl, hown]
      · rw [if_neg heq, if_neg heq]

theorem sample_foldl_putVoice
    {signals : List VoiceSignals} {voice j : Nat} {s : Stream}
    (ids : List Nat)
    {b : Buffer}
    (hvoice : voice < b.voices)
    (hj : j < b.frames)
    (hsize : ∀ own ∈ signals, ∀ s, (own.get s).size ≤ b.frames) :
    (ids.foldl (putVoice signals) b).sample voice s j
      = if voice ∈ ids then written signals voice s j (b.sample voice s j)
        else b.sample voice s j := by
  induction ids generalizing b with
  | nil =>
      rw [if_neg List.not_mem_nil]
      rfl
  | cons id ids ih =>
      obtain ⟨hvoices, hframes⟩ := shape_putVoice signals b id
      have hrest := ih (b := b.putVoice signals id) (by omega) (by omega)
        (fun own hown s => by rw [hframes]; exact hsize own hown s)
      rw [List.foldl_cons, hrest, sample_putVoice hvoice hj hsize]
      by_cases heq : id = voice
      · subst heq
        rw [if_pos rfl, written_written, ite_self, if_pos List.mem_cons_self]
      · have hiff : voice ∈ id :: ids ↔ voice ∈ ids := by
          rw [List.mem_cons]
          constructor
          · rintro (rfl | hmem)
            · exact absurd rfl heq
            · exact hmem
          · exact Or.inr
        simp only [if_neg heq, hiff]

/--
After a block every voice of the buffer has its signals over the beginnings of its
streams, or is silent if it has none.
-/
theorem sample_putVoices
    {signals : List VoiceSignals} {b : Buffer} {voice j : Nat} (s : Stream)
    (hvoice : voice < b.voices)
    (hj : j < b.frames)
    (hsize : ∀ own ∈ signals, ∀ s, (own.get s).size ≤ b.frames) :
    (b.putVoices signals).sample voice s j
      = written signals voice s j (b.sample voice s j) := by
  unfold putVoices
  rw [sample_foldl_putVoice _ hvoice hj hsize, if_pos (List.mem_range.2 hvoice)]

theorem shape_foldl_putVoice (signals : List VoiceSignals) (ids : List Nat) (b : Buffer) :
    (ids.foldl (putVoice signals) b).voices = b.voices
      ∧ (ids.foldl (putVoice signals) b).frames = b.frames := by
  induction ids generalizing b with
  | nil => exact ⟨rfl, rfl⟩
  | cons id ids ih =>
      obtain ⟨hvoices, hframes⟩ := shape_putVoice signals b id
      obtain ⟨hvoices', hframes'⟩ := ih (b.putVoice signals id)
      exact ⟨hvoices'.trans hvoices, hframes'.trans hframes⟩

theorem shape_putVoices (signals : List VoiceSignals) (b : Buffer) :
    (b.putVoices signals).voices = b.voices ∧ (b.putVoices signals).frames = b.frames :=
  shape_foldl_putVoice signals (List.range b.voices) b

/-- A stream that is read after a block. -/
theorem stream?_putVoices
    {signals : List VoiceSignals} {b : Buffer} {voice : Nat} (s : Stream)
    (hvoice : voice < b.voices)
    (hframes : 0 < b.frames)
    (hsize : ∀ own ∈ signals, ∀ s, (own.get s).size ≤ b.frames) :
    ∃ plane, (b.putVoices signals).stream? voice s = some plane
      ∧ ∀ j < b.frames, plane[j]? = written signals voice s j (b.sample voice s j) := by
  obtain ⟨hvoices, hlength⟩ := shape_putVoices signals b
  have hvoice' : voice < (b.putVoices signals).voices := by
    omega
  have hframes' : 0 < (b.putVoices signals).frames := by
    omega
  obtain ⟨plane, hplane, hread⟩ := getElem?_stream? s hvoice' hframes'
  refine ⟨plane, hplane, ?_⟩
  intro j hj
  rw [hread j (by omega), sample_putVoices s hvoice hj hsize]

/-- Streams are alike if their samples are, in buffers of one shape. -/
theorem stream?_congr
    {b c : Buffer} {voice : Nat} {s : Stream}
    (hshape : c.voices = b.voices ∧ c.frames = b.frames)
    (h : ∀ j < b.frames, c.sample voice s j = b.sample voice s j) :
    c.stream? voice s = b.stream? voice s := by
  obtain ⟨hvoices, hframes⟩ := hshape
  have hsize : c.samples.size = b.samples.size := by
    rw [c.size_eq, b.size_eq, hvoices, hframes]
  have hstart : c.planeStart (planeOf voice s) = b.planeStart (planeOf voice s) := by
    unfold planeStart
    rw [hframes]
  have hextract :
      c.samples.extract (b.planeStart (planeOf voice s))
          (b.planeStart (planeOf voice s) + b.frames)
        = b.samples.extract (b.planeStart (planeOf voice s))
            (b.planeStart (planeOf voice s) + b.frames) := by
    apply Array.ext_getElem?
    intro j
    rw [Array.getElem?_extract, Array.getElem?_extract, hsize]
    split
    case isTrue hj =>
      have hsample := h j (by omega)
      unfold sample at hsample
      rwa [hstart] at hsample
    case isFalse => rfl
  have hnumbers : c.Numbers voice ↔ b.Numbers voice := by
    unfold Numbers
    rw [hframes]
  have hcontains (start length : Nat) : c.Contains start length ↔ b.Contains start length := by
    unfold Contains
    rw [hsize]
  simp only [stream?, plane?, run?, hnumbers, hcontains, hstart, hframes, hextract]

/-- What is written for a stream depends on the signal of that stream. -/
theorem written_congr
    {signals others : List VoiceSignals} {voice : Nat} {s : Stream}
    (hsame : others[voice]?.map (fun own => own.get s)
      = signals[voice]?.map fun own => own.get s)
    (j : Nat)
    (before : Option Float32) :
    written others voice s j before = written signals voice s j before := by
  unfold written
  cases hown : signals[voice]? with
  | none =>
      rw [hown] at hsame
      rw [Option.map_eq_none_iff.1 hsame]
  | some own =>
      rw [hown] at hsame
      obtain ⟨other, hother, hget⟩ := Option.map_eq_some_iff.1 hsame
      rw [hother]
      dsimp only
      rw [hget]

/-- What is written for a stream of a voice depends on the signal of that stream. -/
theorem stream?_putVoices_congr
    {signals others : List VoiceSignals} {b : Buffer} {voice : Nat} {s : Stream}
    (hsame : others[voice]?.map (fun own => own.get s)
      = signals[voice]?.map fun own => own.get s)
    (hsize : ∀ own ∈ signals, ∀ s, (own.get s).size ≤ b.frames)
    (hsize' : ∀ own ∈ others, ∀ s, (own.get s).size ≤ b.frames) :
    (b.putVoices others).stream? voice s = (b.putVoices signals).stream? voice s := by
  obtain ⟨hvoices, hframes⟩ := shape_putVoices signals b
  obtain ⟨hvoices', hframes'⟩ := shape_putVoices others b
  refine stream?_congr ⟨hvoices'.trans hvoices.symm, hframes'.trans hframes.symm⟩ ?_
  intro j hj
  rw [hframes] at hj
  by_cases hvoice : voice < b.voices
  · rw [sample_putVoices s hvoice hj hsize, sample_putVoices s hvoice hj hsize']
    exact written_congr hsame j _
  · -- there are no samples beyond the last voice
    have hnone {c : Buffer} (hc : c.voices = b.voices ∧ c.frames = b.frames) :
        c.sample voice s j = none := by
      unfold sample
      apply Array.getElem?_eq_none
      rw [c.size_eq, hc.1, hc.2]
      unfold planeStart planeOf
      rw [hc.2]
      have hmul : b.voices * streamCount ≤ voice * streamCount + s.index := by
        have hle : b.voices * streamCount ≤ voice * streamCount :=
          Nat.mul_le_mul_right _ (by omega)
        omega
      have hmul' := Nat.mul_le_mul_right b.frames hmul
      omega
    rw [hnone ⟨hvoices, hframes⟩, hnone ⟨hvoices', hframes'⟩]

end Samples

end Buffer
end Polyphony
