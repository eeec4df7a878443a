import Polyphony.Proofs.Binary32.Sign
import Polyphony.Proofs.Engine.Concord
import Polyphony.Proofs.Engine.Regulation

/-!
# The settings in force

Three things repeat what the applied settings say: the number of voices that play,
the shift of all pitches, and the glide times of all ramps.  They are set in
different places, when settings are applied and when the sample rate changes, and
agree with the settings at any time.

**Glide times.**  The glide time that sound settings ask for in a role is never
negative, so a ramp glides in just that time.

**Results.**
* `Settings.Sound.nonNegative_glideOf`: no glide time is negative.
* `settings_in_force`: the applied settings are without fault, and voices, tuning
  and ramps of every reachable engine are as they say.
-/

namespace Polyphony

/-- A finite number is one. -/
theorem Binary32.isNaN_of_isFinite
    {x : Float32}
    (h : x.isFinite = true) :
    x.isNaN = false := by
  have hfinite : x.toModel.unpack.isFinite = true := h
  show x.toModel.unpack.isNaN = false
  cases hx : x.toModel.unpack with
  | notANumber =>
      rw [hx] at hfinite
      cases hfinite
  | infinity t => rfl
  | zero t => rfl
  | finite t m e hm => rfl

namespace Settings

section Glides

variable {s : Settings}

/-- A sound number is finite. -/
theorem Sound.isFinite
    (h : s.Sound)
    (n : NumericSetting) :
    (n.get s).isFinite = true :=
  ((n.fault?_eq_none_iff _).1 (h n)).1

/-- A sound number is not negative, unless it may be. -/
theorem Sound.nonNegative
    (h : s.Sound)
    {n : NumericSetting}
    (hsigned : n.isSigned = false) :
    Binary32.NonNegative (n.get s) :=
  ⟨Binary32.isNaN_of_isFinite (h.isFinite n), ((n.fault?_eq_none_iff _).1 (h n)).2 hsigned⟩

/-- The time between two touch updates is not negative. -/
theorem Sound.nonNegative_updateGlide
    (h : s.Sound) :
    Binary32.NonNegative s.updateGlide := by
  have hfinite : s.dataRate.isFinite = true := h.isFinite .dataRate
  have hone : (1.0 : Float32).isFinite = true ∧ 0.0 < (1.0 : Float32) := by
    decide
  have hlowest : lowestDataRate.isFinite = true ∧ 0.0 < lowestDataRate := by
    decide
  have hrate :
      (Binary32.larger s.dataRate lowestDataRate).isFinite = true
        ∧ 0.0 < Binary32.larger s.dataRate lowestDataRate := by
    unfold Binary32.larger
    rw [Binary32.isNaN_of_isFinite hfinite, Binary32.isNaN_of_isFinite hlowest.1]
    by_cases hlt : s.dataRate < lowestDataRate
    · simpa [hlt] using hlowest
    · simpa [hlt] using
        And.intro hfinite (Binary32.pos_of_not_lt hfinite hlowest.1 hlowest.2 hlt)
  exact Binary32.nonNegative_div hone.1 hone.2 hrate.1 hrate.2

/-- No glide time that sound settings ask for is negative. -/
theorem Sound.nonNegative_glideOf
    (h : s.Sound)
    (role : Role) :
    Binary32.NonNegative (s.glideOf role) := by
  have hglide : Binary32.NonNegative s.glide := h.nonNegative (n := .glide) rfl
  have hnone : Binary32.NonNegative 0.0 := ⟨by decide, by decide⟩
  have hdrift : Binary32.NonNegative driftSeconds := ⟨by decide, by decide⟩
  have hquick : Binary32.NonNegative quickGlide := ⟨by decide, by decide⟩
  have hgesture : Binary32.NonNegative s.gestureGlide := by
    unfold gestureGlide
    cases s.protocol with
    | conventional => exact hquick
    | expressive => exact hquick
    | continuousTouch => exact h.nonNegative_updateGlide
  cases role with
  | pitch => exact hglide
  | pitchBend => exact hglide
  | gate => exact hnone
  | velocity => exact hnone
  | drift => exact hdrift
  | _ => exact hgesture

end Glides

end Settings

/-- A ramp takes a time in seconds to each goal, at a sample rate. -/
structure Ramp.GlidesIn (r : Ramp) (seconds rate : Float32) : Prop where
  sampleRate : r.sampleRate = rate
  glideSeconds : r.glideSeconds = seconds
  glideSamples : r.glideSamples = samplesIn seconds rate

/-- A ramp glides in the time that it is regulated by, if that is not negative. -/
theorem Ramp.glidesIn_of_regime
    {r : Ramp} {seconds rate : Float32}
    (h : r.regime = Regime.of rate seconds)
    (hseconds : Binary32.NonNegative seconds) :
    r.GlidesIn seconds rate := by
  unfold Regime.of at h
  rw [hseconds.larger_zero] at h
  obtain ⟨hrate, hglide, hsamples⟩ := Regime.mk.inj h
  exact ⟨hrate, hglide, hsamples⟩

namespace Engine

section InForce

variable {e : Engine}

/-- Every ramp of a set that is regulated glides as the settings ask for its role. -/
theorem WellSet.glidesIn
    (h : e.WellSet)
    {c : Controls}
    (hc : c.regimes = e.regime)
    (role : Role) :
    (c.get role).GlidesIn (e.settings.glideOf role) e.sampleRate :=
  Ramp.glidesIn_of_regime (congrFun hc role) (h.sound.nonNegative_glideOf role)

/--
Whatever settings were asked for and whatever sample rates were accepted, the
settings in force are without fault; as many voices play as they say, and no more
than there are; the tuning is within its range and is the one by which pitches are
shifted; and every ramp of every voice, of the main channel and of the channel bends
glides in the time that the settings ask for in its role, at the sample rate of the
engine.  A sample rate that is refused changes nothing.
-/
theorem settings_in_force
    (h : Reachable e) :
    e.settings.fault? = none
      ∧ e.settings.voices = e.bank.count ∧ e.bank.count ≤ e.capacity
      ∧ (220.0 ≤ e.settings.masterTune ∧ e.settings.masterTune ≤ 880.0)
      ∧ Tuning.masterOffset e.library.log2 e.settings.masterTune = some e.tuningShift
      ∧ (∀ v ∈ e.bank.voices, ∀ role,
          (v.toControls.get role).GlidesIn (e.settings.glideOf role) e.sampleRate)
      ∧ (∀ role, (e.main.get role).GlidesIn (e.settings.glideOf role) e.sampleRate)
      ∧ e.channelBends.length = 16
      ∧ (∀ r ∈ e.channelBends, r.GlidesIn e.settings.glide e.sampleRate)
      ∧ ∀ rate fault after, e.withSampleRate rate = .error fault after →
          isSampleRate rate = false ∧ after = e := by
  have hset : e.WellSet := wellSet_invariant.of_reachable h
  have hregulated : e.Regulated := regulated_invariant.of_reachable h
  have hconcord := concordant_invariant.of_reachable h
  have hcounted : e.bank.count = e.settings.voices := hconcord.counted
  refine ⟨Settings.fault?_eq_none_iff.2 hset.sound, hcounted.symm, hconcord.fits_voices,
    range_of_masterOffset hset.tuned, hset.tuned, ?_, hset.glidesIn hregulated.main,
    length_channelBends hregulated, ?_, ?_⟩
  · intro v hv
    exact hset.glidesIn (hregulated.voices _ (List.mem_map_of_mem hv))
  · intro r hr
    have hmem : r.regime ∈ e.regimes.bends := List.mem_map_of_mem hr
    rw [hregulated.bends] at hmem
    exact Ramp.glidesIn_of_regime (List.eq_of_mem_replicate hmem)
      (hset.sound.nonNegative_glideOf .pitchBend)
  · intro rate fault after hrefused
    refine ⟨?_, e.harmless_withSampleRate rate fault after hrefused⟩
    unfold withSampleRate at hrefused
    split at hrefused
    case isTrue => cases hrefused
    case isFalse hrate => simpa using hrate

/--
Two voices tuned an octave up; then settings with four faults and too many voices, a
new sample rate, and one that is refused.
-/
def misledPair : Engine :=
  [.stage { masterTune := 880.0 }, .process 0 (Buffer.silent 2 0),
    .stage
      { voices := 5, protocol := .continuousTouch, glide := 0.0 / 0.0, dataRate := -1.0,
        masterTune := 1000.0, drift := 1.0 / 0.0 },
    .process 0 (Buffer.silent 2 0), .setSampleRate 44100.0, .setSampleRate (-1.0)].foldl
    Engine.operate (Engine.idle 2 48000.0 (EventQueue.empty 8) {} .plain)

/-- What was at fault stays as it was before, and the amplitude glides for ten milliseconds. -/
theorem in_force_misledPair :
    Reachable misledPair
      ∧ misledPair.settings.fault? = none
      ∧ misledPair.bank.count = 2
      ∧ misledPair.tuningShift = 1.0
      ∧ misledPair.main.amp.GlidesIn 0.01 44100.0
      ∧ misledPair.main.amp.glideSamples = 441
      ∧ misledPair.operate (.setSampleRate (-1.0)) = misledPair := by
  have hreach : Reachable misledPair := Reachable.operateAll (reachableBy_idlePair _) _
  obtain ⟨hsound, hvoices, hcount, hrange, htuned, _, hmain, _, _, hrefused⟩ :=
    settings_in_force hreach
  have hset :
      misledPair.settings
        = { voices := 2, protocol := .continuousTouch, masterTune := 880.0 } := by
    decide +kernel
  have hrate : misledPair.sampleRate = 44100.0 := by
    decide +kernel
  rw [hset] at hvoices htuned
  have hamp := hmain .amp
  rw [hset, hrate] at hamp
  have hshift : Tuning.masterOffset misledPair.library.log2 880.0 = some 1.0 := by
    decide +kernel
  have hglide :
      ({ voices := 2, protocol := .continuousTouch, masterTune := 880.0 } : Settings).glideOf .amp
        = 0.01 := by
    decide +kernel
  have hsamples : Ramp.samplesIn 0.01 44100.0 = 441 := by
    decide +kernel
  rw [hglide] at hamp
  have hminus (e : Engine) :
      e.withSampleRate (-1.0)
        = .error (.invalidSampleRate (-1.0)) (e.operate (.setSampleRate (-1.0))) := by
    rfl
  exact ⟨hreach, hsound, hvoices.symm, Option.some.inj (htuned.symm.trans hshift), hamp,
    hamp.glideSamples.trans hsamples, (hrefused _ _ _ (hminus _)).2⟩

end InForce

end Engine
end Polyphony
