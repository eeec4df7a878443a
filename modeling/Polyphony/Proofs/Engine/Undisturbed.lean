import Polyphony.Proofs.Binary32.Zero
import Polyphony.Proofs.Engine.Renewal
import Polyphony.Proofs.Settings.Repairing

/-!
# Settings that disturb nothing

New settings arrive while notes sound and ramps glide.  If as many voices play
notes as before, and unison is as it was, nothing that sounds is touched: a glide
in progress goes on as it began, and a new glide time counts from the next goal on.

**What settings decide.**  Apart from themselves, settings decide the shift of the
pitches, the glide time of every ramp, and when the drift draws next.  An engine
without all this is what has to stay.

**Results.**
* `distributeGlides_of_regulated`: ramps that follow the settings get no new glide.
* `unset_adopt`: settings change only what they decide, if they change no notes.
* `adopt_settings`: settings that are in force already change nothing.
* `undisturbed_by_settings`: both hold of every reachable engine.
-/

namespace Polyphony

namespace Ramp

section Pace

/-- The ramp without its glide time; a glide in progress stays. -/
def unpaced (r : Ramp) : Ramp :=
  { r with glideSeconds := 0.0, glideSamples := 0 }

@[simp] theorem unpaced_withGlide (r : Ramp) (seconds : Float32) :
    (r.withGlide seconds).unpaced = r.unpaced := by
  rfl

/-- A glide time that regulates a ramp already changes nothing. -/
theorem withGlide_of_regime
    {r : Ramp} {seconds rate : Float32}
    (h : r.regime = Regime.of rate seconds) :
    r.withGlide seconds = r := by
  obtain ⟨hrate, hseconds, hsamples⟩ := Regime.mk.inj h
  have hmeasured : samplesIn r.glideSeconds r.sampleRate = r.glideSamples := by
    rw [hrate, hseconds, hsamples]
  simp [withGlide, measureGlide, ← hseconds, hmeasured]

end Pace

end Ramp

namespace Controls

section Pace

@[simp] theorem map_unpaced_withGlides (c : Controls) (pitch gesture drift : Float32) :
    (c.withGlides pitch gesture drift).map Ramp.unpaced = c.map Ramp.unpaced := by
  rfl

/-- Glide times that regulate all ramps already change nothing. -/
theorem withGlides_of_regimes
    {c : Controls} {s : Settings} {rate : Float32}
    (h : c.regimes = fun role => .of rate (s.glideOf role)) :
    c.withGlides s.glide s.gestureGlide driftSeconds = c := by
  refine ext_get fun role => ?_
  rw [get_withGlides]
  exact Ramp.withGlide_of_regime (congrFun h role)

end Pace

end Controls

namespace Engine

section Undisturbed

variable {e : Engine} {next : Settings}

/-- The engine without what settings decide. -/
def unset (e : Engine) : Engine :=
  { e with
    settings := {}
    tuningShift := 0.0
    bank := e.bank.mapAll fun v => v.mapControls fun c => c.map Ramp.unpaced
    main := e.main.map Ramp.unpaced
    channelBends := e.channelBends.map Ramp.unpaced
    drift := e.drift.restart }

@[simp] theorem unset_distributeGlides (e : Engine) :
    e.distributeGlides.unset = e.unset := by
  simp [unset, distributeGlides, Bank.mapAll, Voice.mapControls]

/-- New settings change what they decide and how many voices play notes. -/
theorem unset_resettled
    (hcount : min (e.admitted next).voices e.capacity = e.bank.count) :
    (e.resettled next).unset = e.unset := by
  have hbank : e.bank.withCount (e.admitted next).voices = e.bank :=
    congrArg (fun count => { e.bank with count }) hcount
  have hdrift :
      (if startsDrift e.settings (e.admitted next) then e.drift.restart
        else e.drift).restart = e.drift.restart := by
    split <;> rfl
  simp [unset, resettled, hbank, hdrift]

/-- Settings that change no notes change only what they decide. -/
theorem unset_adopt
    (hcounted : e.bank.count = e.settings.voices)
    (hvoices : min next.voices e.capacity = e.settings.voices)
    (hunison : next.unison = e.settings.unison) :
    (e.adopt next).unset = e.unset := by
  have hadmitted : (e.admitted next).voices = e.settings.voices := by
    simp [admitted, hvoices]
  have hsame : (e.admitted next).unison = e.settings.unison := by
    simp [admitted, hunison]
  have hquiet : changesNotes e.settings (e.admitted next) = false := by
    simp [changesNotes, hadmitted, hsame]
  have hcount : min (e.admitted next).voices e.capacity = e.bank.count := by
    rw [hadmitted, hcounted, ← hvoices, Nat.min_assoc, Nat.min_self]
  simp [adopt_eq, hquiet, unset_resettled hcount]

/-- When every ramp follows the settings, no glide time changes. -/
theorem distributeGlides_of_regulated
    (h : e.Regulated) :
    e.distributeGlides = e := by
  have hvoice (v : Voice) (hv : v ∈ e.bank.voices) :
      (v.mapControls fun c =>
        c.withGlides e.settings.glide e.settings.gestureGlide driftSeconds) = v :=
    congrArg (fun c => { v with toControls := c })
      (Controls.withGlides_of_regimes (h.voice hv))
  have hbend (r : Ramp) (hr : r ∈ e.channelBends) : r.withGlide e.settings.glide = r :=
    Ramp.withGlide_of_regime (h.bend hr)
  simp [distributeGlides, Bank.mapAll, List.map_congr_left hvoice, List.map_congr_left hbend,
    Controls.withGlides_of_regimes h.main]

/-- Settings that are in force already change nothing. -/
theorem adopt_settings
    (hset : e.WellSet)
    (hregulated : e.Regulated)
    (hconcord : e.roster.Concordant) :
    e.adopt e.settings = e := by
  have hcounted : e.bank.count = e.settings.voices := hconcord.counted
  have hfits : e.settings.voices ≤ e.capacity := hcounted ▸ hconcord.fits_voices
  have hadmitted : e.admitted e.settings = e.settings := admitted_settings hset hfits
  have hquiet : changesNotes e.settings e.settings = false := by
    simp [changesNotes]
  have hbank : e.bank.withCount e.settings.voices = e.bank :=
    congrArg (fun count => { e.bank with count }) ((Nat.min_eq_left hfits).trans hcounted.symm)
  have hsame : e.resettled e.settings = e := by
    simp [resettled, hadmitted, hbank, startsDrift_self, Settings.repaired_of_sound hset.sound,
      hset.tuned]
  simp [adopt_eq, hadmitted, hquiet, hsame, distributeGlides_of_regulated hregulated]

end Undisturbed

section Blocks

variable {e : Engine}

/--
New settings that ask for as many voices, of those there are, and for unison as
before change nothing but the settings, the shift of the pitches, the glide times,
and the clock of the drift: tenancies, values, goals, pending changes and glides in
progress of all ramps, the tables, the queue, the pedal, the rotation and the clock
stay.  Settings that are in force already are taken and change nothing at all.
-/
theorem undisturbed_by_settings
    (h : Reachable e) :
    (∀ next, e.awaited? = some next →
      min next.voices e.capacity = e.settings.voices →
      next.unison = e.settings.unison →
      e.adoptAwaited.unset = e.taken.unset)
    ∧ (e.awaited? = some e.settings → e.adoptAwaited = e.taken) := by
  have hset : e.taken.WellSet := wellSet_invariant.around _ _ _ _ _ _ _
    (wellSet_invariant.of_reachable h)
  have hregulated : e.taken.Regulated := regulated_invariant.around _ _ _ _ _ _ _
    (regulated_invariant.of_reachable h)
  have hconcord : e.roster.Concordant := concordant_invariant.of_reachable h
  have hadopt {next : Settings} (hawaited : e.awaited? = some next) :
      e.adoptAwaited = e.taken.adopt next := by
    simp [adoptAwaited, hawaited]
  constructor
  · intro next hawaited hvoices hunison
    rw [hadopt hawaited]
    exact unset_adopt hconcord.counted hvoices hunison
  · intro hawaited
    rw [hadopt hawaited]
    exact adopt_settings hset hregulated hconcord

@[simp] theorem settings_stage (e : Engine) (s : Settings) :
    (e.stage s).settings = e.settings := by
  rfl

/-- Without a mailbox the settings that were staged last wait. -/
theorem awaited?_stage
    (hmailbox : e.mailbox = none)
    (s : Settings) :
    (e.stage s).awaited? = some s := by
  simp [awaited?, stage, hmailbox]

/-- Taking what was staged leaves an engine for which nothing waited. -/
theorem taken_stage
    (hmailbox : e.mailbox = none)
    (hstaged : e.staged = none)
    (s : Settings) :
    (e.stage s).taken = e := by
  cases e
  simp_all [taken, stage]

/-- Two voices, one of which glides in a hundredth of a second to its first note. -/
def glidingPair : Engine :=
  [.stage { voices := 2, glide := 0.01 }, .push (Event.noteOn 3 1 81.0 1.0 0),
    .process 2 (Buffer.silent 2 2)].foldl
    Engine.operate (idle 2 48000.0 (EventQueue.empty 8) {} .plain)

/-- More voices than there are, a slower glide, another tuning, and drift. -/
def retuned : Settings :=
  { voices := 9, glide := 0.5, masterTune := 442.0, drift := 1.0 }

/-- The glide goes on through new settings, and settings in force change nothing. -/
theorem undisturbed_glidingPair :
    Reachable (glidingPair.stage retuned)
      ∧ (glidingPair.stage retuned).adoptAwaited.unset = glidingPair.unset
      ∧ (glidingPair.stage retuned).adoptAwaited.settings = { retuned with voices := 2 }
      ∧ (glidingPair.bank.voice? 0).map (fun v => (v.phase, v.pitch.remaining))
        = some (.held, 478)
      ∧ (glidingPair.stage glidingPair.settings).adoptAwaited = glidingPair := by
  have hreach : Reachable glidingPair := Reachable.operateAll (reachableBy_idlePair _) _
  have hstaged (s : Settings) : Reachable (glidingPair.stage s) :=
    show Reachable (glidingPair.operate (.stage s)) from .operate hreach trivial
  obtain ⟨hmailbox, hsettled⟩ : glidingPair.mailbox = none ∧ glidingPair.staged = none := by
    decide +kernel
  have hawaited (s : Settings) : (glidingPair.stage s).awaited? = some s :=
    awaited?_stage hmailbox s
  have htaken (s : Settings) : (glidingPair.stage s).taken = glidingPair :=
    taken_stage hmailbox hsettled s
  have hquiet := (undisturbed_by_settings (hstaged retuned)).1 retuned (hawaited _)
    (by decide +kernel) (by decide +kernel)
  have hsame := (undisturbed_by_settings (hstaged glidingPair.settings)).2
    (by rw [settings_stage, hawaited])
  rw [htaken] at hquiet hsame
  exact ⟨hstaged _, hquiet, by decide +kernel, by decide +kernel, hsame⟩

end Blocks

end Engine
end Polyphony
