import Polyphony.Proofs.Engine.Rendering

/-!
# The clock of an engine

A block begins at the time of the clock and moves the clock to its end.  Nothing else
that is done within a block moves it.

**Results.**
* `clock_process`: a block moves the clock by its length.
* `processBy_eq`: as long as the end of a block can be counted, it makes no difference
  what becomes of times that cannot.
-/

namespace Polyphony

namespace Engine

section Clock

theorem blockLength_le (frames : Nat) (out : Buffer) :
    blockLength frames out ≤ frames :=
  Nat.le_trans (Nat.min_le_left _ _) (Nat.min_le_left _ _)

theorem clock_adoptAwaited (e : Engine) :
    e.adoptAwaited.clock = e.clock := by
  unfold adoptAwaited adopt
  split
  · dsimp only
    split <;> rfl
  · rfl

/-- Neither the events of a block nor its frames move the clock. -/
theorem clock_rendered (e : Engine) (n stop places : Nat) :
    (((e.prepare n).performBefore stop).renderVoices n places).2.clock = e.clock := by
  have hperformed : ((e.prepare n).performBefore stop).clock = (e.prepare n).clock :=
    congrArg Background.clock (background_performAll _ _)
  rw [← clock_prepare e n, ← hperformed, renderVoices_snd]

theorem clock_renderBlock (e : Engine) (n : Nat) (out : Buffer) :
    (e.renderBlock n out).1.clock = e.clock + n := by
  have hfinished (f : Engine) : (f.finish n).clock = f.clock + n := rfl
  rw [renderBlock_fst, hfinished]
  exact congrArg (· + n) (clock_rendered e n _ out.voices)

theorem clock_process (e : Engine) (frames : Nat) (out : Buffer) :
    (e.process frames out).1.clock = e.clock + blockLength frames out := by
  unfold process
  dsimp only
  split
  case isTrue hzero => rw [clock_adoptAwaited, hzero, Nat.add_zero]
  case isFalse => rw [clock_renderBlock, clock_adoptAwaited]

/-- A block that ends where it does on exact times. -/
theorem renderUntil_clock_add (e : Engine) (n : Nat) (out : Buffer) :
    e.renderUntil n (e.clock + n) out = e.renderBlock n out := by
  have hrendered := clock_rendered e n (e.clock + n) out.voices
  unfold renderUntil renderBlock performed performDue finish
  rw [clock_prepare]
  dsimp only
  rw [hrendered]

/-- If the end of a block can be counted, the block is processed, and at exact times. -/
theorem processBy_eq
    {e : Engine} {frames : Nat} {out : Buffer}
    (h : e.clock + blockLength frames out ≤ maxCount)
    (o : Overflow) :
    e.processBy o frames out = some (e.process frames out) := by
  rw [← clock_adoptAwaited] at h
  unfold processBy process
  dsimp only
  split
  · rfl
  · rw [Overflow.add?_of_le h, Option.map_some, renderUntil_clock_add]

end Clock

end Engine
end Polyphony
