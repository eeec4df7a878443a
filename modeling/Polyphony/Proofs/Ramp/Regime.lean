import Polyphony.Proofs.Ramp.Frames

/-!
# What moves a ramp and what only it moves

The sample rate of a ramp and its glide time decide how it gets to a goal.
Goals, frames and jumps leave them alone: only a new sample rate or a new glide
time sets them.

**Results.**
* `regime_render`, `regime_scheduleAll`: rendering and scheduling keep the regime.
* `regime_withGlide`: a new glide time decides it, at the sample rate of the ramp.
* `toZero_congr`: nothing else is left of a ramp that has jumped to zero.
-/

namespace Polyphony

/-- How a ramp gets to a goal. -/
structure Regime where
  /-- Samples per second. -/
  sampleRate : Float32
  /-- The glide time in seconds. -/
  glideSeconds : Float32
  /-- The glide time in samples. -/
  glideSamples : Nat

/-- What a glide time asks for at a sample rate. -/
def Regime.of (sampleRate seconds : Float32) : Regime where
  sampleRate := sampleRate
  glideSeconds := Binary32.larger seconds 0.0
  glideSamples := Ramp.samplesIn (Binary32.larger seconds 0.0) sampleRate

namespace Ramp

section Regimes

/-- How the ramp gets to a goal. -/
def regime (r : Ramp) : Regime where
  sampleRate := r.sampleRate
  glideSeconds := r.glideSeconds
  glideSamples := r.glideSamples

@[simp] theorem regime_schedule (r : Ramp) (value : Float32) (offset : Nat) :
    (r.schedule value offset).regime = r.regime := by
  rfl

@[simp] theorem regime_scheduleAll (r : Ramp) (changes : List Change) :
    (r.scheduleAll changes).regime = r.regime := by
  rfl

@[simp] theorem regime_dropPending (r : Ramp) :
    r.dropPending.regime = r.regime := by
  rfl

@[simp] theorem regime_toZero (r : Ramp) :
    r.toZero.regime = r.regime := by
  rfl

@[simp] theorem regime_withGlide (r : Ramp) (seconds : Float32) :
    (r.withGlide seconds).regime = Regime.of r.sampleRate seconds := by
  rfl

theorem regime_aim (r : Ramp) (goal : Float32) :
    (r.aim goal).regime = r.regime := by
  unfold aim
  split <;> rfl

theorem regime_aimAll (changes : List Change) (r : Ramp) :
    (aimAll changes r).regime = r.regime := by
  induction changes generalizing r with
  | nil => rfl
  | cons c changes ih => exact (ih (r.aim c.value)).trans (regime_aim r c.value)

theorem regime_glideOn (r : Ramp) :
    r.glideOn.regime = r.regime := by
  cases r with
  | mk _ _ _ _ _ _ _ remaining => rcases remaining with _ | _ | left <;> rfl

theorem regime_next (r : Ramp) :
    r.next.regime = r.regime :=
  (regime_glideOn _).trans (regime_aimAll _ r)

theorem regime_iterate_next (n : Nat) (r : Ramp) :
    (next^[n] r).regime = r.regime := by
  induction n generalizing r with
  | zero => rfl
  | succ n ih => exact (ih r.next).trans (regime_next r)

/-- Rendering keeps the regime. -/
theorem regime_render
    {n : Nat} (r : Ramp)
    (h : 0 < n) :
    (r.render n).2.regime = r.regime := by
  rw [render_eq r h]
  exact regime_iterate_next n _

/-- After a jump to zero there is nothing but the regime. -/
theorem toZero_congr
    {r s : Ramp}
    (h : s.regime = r.regime) :
    s.toZero = r.toZero := by
  obtain ⟨hrate, hseconds, hsamples⟩ := Regime.mk.inj h
  unfold toZero jumpTo
  rw [hrate, hseconds, hsamples]

end Regimes

end Ramp
end Polyphony
