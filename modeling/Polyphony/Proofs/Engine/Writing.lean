import Polyphony.Proofs.Engine.Composition
import Polyphony.Proofs.Engine.Delivery

/-!
# What a block writes

The host lends its output buffer to the engine for a block.  The engine fills the
first frames of the voices that play and silences all voices beyond them.  It
neither reads what the buffer held before nor touches anything else in it, and a
block without frames does nothing at all.

**Results.**
* `sample_playing`, `sample_beyond`: every sample of the buffer after a block.
* `writes_only_its_block`: what is written, what stays, and what depends on what the
  buffer held before.
-/

namespace Polyphony
namespace Engine

section Writing

variable {e : Engine} {frames : Nat} {out other : Buffer}

/-- Every stream of a rendered voice is as long as the block. -/
theorem size_get_renderVoice (e : Engine) (n id : Nat) (v : Voice) (s : Stream) :
    (((e.blockContext n).renderVoice id v).1.get s).size = n := by
  refine Nat.le_antisymm ((e.blockContext n).size_get_renderVoice_le id v s) ?_
  cases n with
  | zero => exact Nat.zero_le _
  | succ n =>
      have hlast := e.getElem?_renderVoice id v (Fin.last n) s
      obtain ⟨hlt, _⟩ := Array.getElem?_eq_some_iff.1 hlast
      exact hlt

/-- The engine after a block depends on the shape of the buffer only. -/
theorem process_fst_congr
    (hvoices : other.voices = out.voices)
    (hframes : other.frames = out.frames) :
    (e.process frames other).1 = (e.process frames out).1 := by
  have hlength : blockLength frames other = blockLength frames out := by
    unfold blockLength
    rw [hframes]
  unfold process
  dsimp only
  rw [hlength]
  split
  · rfl
  · rw [renderBlock_fst, renderBlock_fst, hvoices]

/-- The samples of a voice that plays: its signals, and behind them what was there. -/
theorem sample_playing
    (h : Reachable e)
    (hn : 0 < blockLength frames out)
    {voice : Nat}
    (hcount : voice < e.adoptAwaited.bank.count)
    (hvoice : voice < out.voices) :
    ∃ v, (e.adoptAwaited.performed (blockLength frames out)).bank.voices[voice]? = some v
      ∧ ∀ s, ∀ j < out.frames, (e.process frames out).2.sample voice s j
        = if j < blockLength frames out then
            ((((e.adoptAwaited.performed (blockLength frames out)).blockContext
              (blockLength frames out)).renderVoice voice v).1.get s)[j]?
          else out.sample voice s j := by
  obtain ⟨v, hv⟩ := exists_voice_performed h (n := blockLength frames out) hcount
  refine ⟨v, hv, fun s j hj => ?_⟩
  have hsize := size_signals_le_frames (e.adoptAwaited.performed (blockLength frames out)) frames out
  rw [process_snd hn, Buffer.sample_putVoices s hvoice hj hsize]
  unfold Buffer.written
  rw [getElem?_renderVoices_fst, count_performed, if_pos (by omega), hv, Option.map_some]
  dsimp only
  rw [size_get_renderVoice]

/-- The voices beyond those that play are silent. -/
theorem sample_beyond
    (hn : 0 < blockLength frames out)
    {voice : Nat}
    (hcount : e.adoptAwaited.bank.count ≤ voice)
    (hvoice : voice < out.voices)
    (s : Stream)
    {j : Nat}
    (hj : j < out.frames) :
    (e.process frames out).2.sample voice s j = some 0.0 := by
  have hsize := size_signals_le_frames (e.adoptAwaited.performed (blockLength frames out)) frames out
  rw [process_snd hn, Buffer.sample_putVoices s hvoice hj hsize]
  unfold Buffer.written
  rw [getElem?_renderVoices_fst, count_performed, if_neg (by omega)]

/-- The samples of a block do not depend on what the buffer held before. -/
theorem sample_playing_congr
    (h : Reachable e)
    (hn : 0 < blockLength frames out)
    (hvoices : other.voices = out.voices)
    (hframes : other.frames = out.frames)
    {voice : Nat}
    (hcount : voice < e.adoptAwaited.bank.count)
    (hvoice : voice < out.voices)
    (s : Stream)
    {j : Nat}
    (hj : j < blockLength frames out) :
    (e.process frames other).2.sample voice s j = (e.process frames out).2.sample voice s j := by
  have hlength : blockLength frames other = blockLength frames out := by
    unfold blockLength
    rw [hframes]
  have hle : blockLength frames out ≤ out.frames := Nat.min_le_right _ _
  obtain ⟨v, hv, hout⟩ := sample_playing h hn hcount hvoice
  obtain ⟨w, hw, hother⟩ := sample_playing h (hlength ▸ hn) hcount (hvoices ▸ hvoice)
  rw [hlength, hv] at hw
  obtain rfl := Option.some.inj hw
  rw [hout s j (by omega), hother s j (by omega), hlength, if_pos hj, if_pos hj]

/--
A block keeps the shape of its buffer.  Without frames it leaves the buffer, the
queue and the clock alone.  With some, it silences the voices beyond those that
play on all frames, leaves the frames behind the block of all other voices alone,
and neither the frames of the block nor the engine after it depend on what the
buffer held before.
-/
theorem writes_only_its_block
    (h : Reachable e)
    (frames : Nat)
    (out : Buffer) :
    ((e.process frames out).2.voices = out.voices
        ∧ (e.process frames out).2.frames = out.frames)
      ∧ (blockLength frames out = 0 →
          (e.process frames out).2 = out
            ∧ (e.process frames out).1.queue = e.queue
            ∧ (e.process frames out).1.clock = e.clock)
      ∧ (0 < blockLength frames out →
          (∀ voice s j, (e.process frames out).1.bank.count ≤ voice → voice < out.voices →
              j < out.frames →
              (e.process frames out).2.sample voice s j = some 0.0)
            ∧ (∀ voice s j, voice < (e.process frames out).1.bank.count → voice < out.voices →
              blockLength frames out ≤ j → j < out.frames →
              (e.process frames out).2.sample voice s j = out.sample voice s j)
            ∧ ∀ other : Buffer, other.voices = out.voices → other.frames = out.frames →
              (e.process frames other).1 = (e.process frames out).1
                ∧ ∀ voice s j, voice < (e.process frames out).1.bank.count →
                  voice < out.voices → j < blockLength frames out →
                  (e.process frames other).2.sample voice s j
                    = (e.process frames out).2.sample voice s j) := by
  rw [count_process]
  rcases Nat.eq_zero_or_pos (blockLength frames out) with hzero | hpos
  · have hprocess : e.process frames out = (e.adoptAwaited, out) := by
      simp only [process, hzero, if_true]
    rw [hprocess]
    refine ⟨⟨rfl, rfl⟩, fun _ => ⟨rfl, queue_adoptAwaited e, clock_adoptAwaited e⟩, ?_⟩
    intro hpos
    omega
  · refine ⟨?_, fun hzero => by omega, fun _ => ⟨?_, ?_, ?_⟩⟩
    · rw [process_snd hpos]
      exact Buffer.shape_putVoices _ _
    · exact fun voice s j hcount hvoice hj => sample_beyond hpos hcount hvoice s hj
    · intro voice s j hcount hvoice hbehind hj
      obtain ⟨_, _, hsample⟩ := sample_playing h hpos hcount hvoice
      rw [hsample s j hj, if_neg (by omega)]
    · exact fun other hvoices hframes =>
        ⟨process_fst_congr hvoices hframes, fun voice s j hcount hvoice hj =>
          sample_playing_congr h hpos hvoices hframes hcount hvoice s hj⟩

/-- A bent note, played into three voices of six frames that hold something else. -/
theorem writes_bentFinger :
    Reachable bentFinger
      ∧ blockLength 4 (Buffer.filled 3 6 7.0) = 4
      ∧ (bentFinger.process 4 (Buffer.filled 3 6 7.0)).1.bank.count = 2
      ∧ (bentFinger.process 4 (Buffer.filled 3 6 7.0)).2.sample 2 .pitch 5 = some 0.0
      ∧ (bentFinger.process 4 (Buffer.filled 3 6 7.0)).2.sample 0 .pitch 5 = some 7.0
      ∧ (bentFinger.process 4 (Buffer.filled 3 6 7.0)).2.sample 0 .pitch 3
          = (bentFinger.process 4 (Buffer.silent 3 6)).2.sample 0 .pitch 3 := by
  have hreach : Reachable bentFinger := Reachable.operateAll (reachableBy_idlePair _) _
  have hlength : blockLength 4 (Buffer.filled 3 6 7.0) = 4 := by
    decide
  have hcount : (bentFinger.process 4 (Buffer.filled 3 6 7.0)).1.bank.count = 2 := by
    decide +kernel
  have hheld : (Buffer.filled 3 6 7.0).sample 0 .pitch 5 = some 7.0 := by
    decide +kernel
  obtain ⟨_, _, hblock⟩ := writes_only_its_block hreach 4 (Buffer.filled 3 6 7.0)
  obtain ⟨hbeyond, hbehind, hsame⟩ := hblock (by decide)
  rw [hcount] at hbeyond hbehind hsame
  refine ⟨hreach, hlength, hcount, hbeyond 2 .pitch 5 (by decide) (by decide) (by decide), ?_, ?_⟩
  · rw [← hheld]
    exact hbehind 0 .pitch 5 (by decide) (by decide) (by decide) (by decide)
  · exact ((hsame (Buffer.silent 3 6) rfl rfl).2 0 .pitch 3 (by decide) (by decide)
      (by decide)).symm

end Writing

end Engine
end Polyphony
