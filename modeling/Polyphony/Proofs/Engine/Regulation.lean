import Polyphony.Proofs.Binary32.Zero
import Polyphony.Proofs.Engine.Bare
import Polyphony.Proofs.Ramp.Regime
import Polyphony.Proofs.Settings.Soundness

/-!
# Applied settings and the ramps that follow them

What a host stages may be at fault, but the settings that an engine applies never
are, and every ramp of a reachable engine glides as they ask for its role.

**Invariants.**  A property holds of every reachable engine if it holds at rest
and is kept by new settings and sample rates, by silence, and by the parts of a
block: its opening, its events, and its rendering.

**Results.**
* `EngineInvariant.of_reachable`: such a property holds of every reachable engine.
* `wellSet_invariant`: the applied settings are without fault, their tuning is the
  one that shifts the pitches, and the sample rate is one.
* `regulated_invariant`: every ramp follows the settings, and every channel has a
  bend.
-/

namespace Polyphony

/-- What holds of engines at rest and is kept by all that happens to them. -/
structure EngineInvariant (P : Engine → Prop) : Prop where
  idle : ∀ {capacity : Nat} {rate : Float32} (queue : EventQueue) (t : Temperament)
    (library : Library),
    Engine.isSampleRate rate = true → capacity ≤ maxVoices →
      P (Engine.idle capacity rate queue t library)
  around : ∀ {e : Engine} (pedal : Bool) (clock : Nat) (queue : EventQueue)
    (mailbox : Option Mailbox) (staged : Option Settings) (drift : Drift)
    (temperament : Temperament),
    P e → P { e with pedal, clock, queue, mailbox, staged, drift, temperament }
  rerated : ∀ {e : Engine} {rate : Float32},
    Engine.isSampleRate rate = true → P e → P (e.rerated rate).distributeGlides
  resettled : ∀ {e : Engine} (next : Settings), P e → P (e.resettled next).distributeGlides
  silence : ∀ {e : Engine}, P e → P e.silence
  opened : ∀ {e : Engine} (n : Nat), P e → P (e.opened n)
  perform : ∀ {e : Engine} (event : Event), P e → P (e.perform event)
  rendered : ∀ {e : Engine} {n : Nat} (places : Nat),
    0 < n → P e → P (e.renderVoices n places).2
  dropPending : ∀ {e : Engine}, P e → P e.dropPending

namespace EngineInvariant

section Invariants

variable {P : Engine → Prop} {e : Engine}

theorem adoptAwaited
    (hinv : EngineInvariant P)
    (h : P e) :
    P e.adoptAwaited := by
  have htaken : P e.taken := hinv.around _ _ _ _ _ _ _ h
  unfold Engine.adoptAwaited
  split
  · rw [Engine.adopt_eq]
    split
    · exact hinv.silence (hinv.resettled _ htaken)
    · exact hinv.resettled _ htaken
  · exact h

theorem performAll
    (hinv : EngineInvariant P)
    (events : List Event)
    (h : P e) :
    P (events.foldl Engine.perform e) := by
  induction events generalizing e with
  | nil => exact h
  | cons event events ih => exact ih (hinv.perform event h)

theorem performed
    (hinv : EngineInvariant P)
    (n : Nat)
    (h : P e) :
    P (e.performed n) := by
  rw [Engine.performed_eq]
  exact hinv.performAll _ (hinv.opened n h)

theorem process
    (hinv : EngineInvariant P)
    (frames : Nat) (out : Buffer)
    (h : P e) :
    P (e.process frames out).1 := by
  unfold Engine.process
  dsimp only
  split
  case isTrue => exact hinv.adoptAwaited h
  case isFalse hzero =>
    have hperformed := hinv.performed (Engine.blockLength frames out) (hinv.adoptAwaited h)
    have hrendered := hinv.rendered out.voices (Nat.pos_of_ne_zero hzero) hperformed
    exact hinv.around _ _ _ _ _ _ _ (hinv.dropPending hrendered)

theorem operate
    (hinv : EngineInvariant P)
    (op : Operation)
    (h : P e) :
    P (e.operate op) := by
  cases op with
  | attachMailbox => exact hinv.around _ _ _ _ _ _ _ h
  | post s =>
      rw [Engine.operate_post]
      exact hinv.around _ _ _ _ _ _ _ h
  | stage s => exact hinv.around _ _ _ _ _ _ _ h
  | push event =>
      obtain ⟨_, -, hpush⟩ := Engine.exists_operate_push e event
      rw [hpush]
      exact hinv.around _ _ _ _ _ _ _ h
  | setSampleRate rate =>
      rw [Engine.operate_setSampleRate]
      cases hrate : Engine.isSampleRate rate with
      | true => exact hinv.rerated hrate h
      | false => exact h
  | setTemperament t => exact hinv.around _ _ _ _ _ _ _ h
  | setClock time => exact hinv.around _ _ _ _ _ _ _ h
  | silence => exact hinv.silence h
  | reset => exact hinv.around _ _ _ _ _ _ _ (hinv.silence h)
  | process frames out => exact hinv.process frames out h

/-- An invariant holds of every engine that a host reaches. -/
theorem of_reachable
    (hinv : EngineInvariant P)
    (h : Engine.Reachable e) :
    P e := by
  induction h with
  | @build capacity _ rate _ _ e h =>
      rw [Engine.eq_idle_of_build h]
      unfold Engine.build at h
      split at h
      case isTrue => cases h
      case isFalse hrate =>
        split at h
        case isTrue => cases h
        case isFalse hcapacity =>
          exact hinv.idle _ _ _ (by simpa using hrate) (Nat.le_of_not_lt hcapacity)
  | @operate e op _ _ ih => exact hinv.operate op ih

end Invariants

end EngineInvariant

namespace Engine

section Settings

variable {e f : Engine}

/-- The sample rate is one, there are not too many voices, and the settings are in force. -/
structure WellSet (e : Engine) : Prop where
  rate : isSampleRate e.sampleRate = true
  capacity : e.capacity ≤ maxVoices
  sound : e.settings.Sound
  tuned : Tuning.masterOffset e.library.log2 e.settings.masterTune = some e.tuningShift

/-- Whether an engine is well set depends on its background. -/
theorem WellSet.congr
    (h : e.WellSet)
    (hsame : f.background = e.background) :
    f.WellSet := by
  have hsettings : f.settings = e.settings := congrArg Background.settings hsame
  have hrate : f.sampleRate = e.sampleRate := congrArg Background.sampleRate hsame
  have hcapacity : f.capacity = e.capacity := congrArg Background.capacity hsame
  have hshift : f.tuningShift = e.tuningShift := congrArg Background.tuningShift hsame
  have hlibrary : f.library = e.library := congrArg Background.library hsame
  exact
    { rate := hrate ▸ h.rate
      capacity := hcapacity ▸ h.capacity
      sound := hsettings ▸ h.sound
      tuned := by
        rw [hsettings, hshift, hlibrary]
        exact h.tuned }

theorem background_distributeGlides (e : Engine) :
    e.distributeGlides.background = e.background := by
  simp [background, distributeGlides, Bank.mapAll, capacity, Bank.capacity]

/-- Drift that is on does not start. -/
theorem startsDrift_of_on
    {old : Settings}
    (hon : 0.0 < old.drift)
    (new : Settings) :
    startsDrift old new = false := by
  unfold startsDrift
  rw [Binary32.not_beq_zero_of_pos hon, Bool.and_false]

/-- Drift that goes on as it was does not start. -/
theorem startsDrift_self (s : Settings) :
    startsDrift s s = false := by
  by_cases hon : 0.0 < s.drift
  · exact startsDrift_of_on hon s
  · unfold startsDrift
    rw [decide_eq_false hon, Bool.false_and]

/-- A tuning that shifts pitches lies within an octave up or down. -/
theorem range_of_masterOffset
    {log2 : Float32 → Float32} {hz shift : Float32}
    (h : Tuning.masterOffset log2 hz = some shift) :
    Tuning.lowestTuning ≤ hz ∧ hz ≤ Tuning.highestTuning := by
  unfold Tuning.masterOffset at h
  split at h
  case isTrue hrange => exact hrange
  case isFalse => cases h

/-- A tuning out of range is not admitted. -/
theorem masterOffset_admitted
    (h : e.WellSet)
    (next : Settings) :
    Tuning.masterOffset e.library.log2 (e.admitted next).masterTune
      = some (e.resettled next).tuningShift := by
  show Tuning.masterOffset e.library.log2
      (e.admittedTuning (next.repaired e.settings).masterTune)
    = some ((Tuning.masterOffset e.library.log2
        (next.repaired e.settings).masterTune).getD e.tuningShift)
  unfold admittedTuning
  cases hoffset : Tuning.masterOffset e.library.log2 (next.repaired e.settings).masterTune with
  | none => exact h.tuned
  | some offset => exact hoffset

/-- The settings that are admitted are sound. -/
theorem sound_admitted
    (h : e.WellSet)
    (next : Settings) :
    (e.admitted next).Sound := by
  have hrepaired := h.sound.repaired next
  intro n
  cases n with
  | masterTune =>
      show NumericSetting.masterTune.fault?
        (e.admittedTuning (next.repaired e.settings).masterTune) = none
      unfold admittedTuning
      split
      · exact hrepaired .masterTune
      · exact h.sound .masterTune
  | bendRange => exact hrepaired .bendRange
  | glide => exact hrepaired .glide
  | dataRate => exact hrepaired .dataRate
  | drift => exact hrepaired .drift

/-- The settings of a reachable engine are sound and in force. -/
theorem wellSet_invariant : EngineInvariant WellSet where
  idle := fun queue t library hrate hcapacity =>
    { rate := hrate
      capacity := by
        simpa [idle, distributeGlides, Bank.mapAll, Bank.idle, Engine.capacity, Bank.capacity]
          using hcapacity
      sound := Settings.sound_default
      tuned := Tuning.masterOffset_concertPitch library.log2_one }
  around := fun _ _ _ _ _ _ _ h => ⟨h.rate, h.capacity, h.sound, h.tuned⟩
  rerated := fun {e rate} hrate h =>
    have hcapacity : (e.rerated rate).capacity = e.capacity := by
      simp [rerated, Bank.withSampleRate, Bank.mapAll, capacity, Bank.capacity]
    have hrerated : (e.rerated rate).WellSet :=
      ⟨hrate, hcapacity ▸ h.capacity, h.sound, h.tuned⟩
    hrerated.congr (background_distributeGlides _)
  resettled := fun {e} next h =>
    have hresettled : (e.resettled next).WellSet :=
      ⟨h.rate, h.capacity, sound_admitted h next, masterOffset_admitted h next⟩
    hresettled.congr (background_distributeGlides _)
  silence := fun {e} h => h.congr (background_silence e)
  opened := fun {e} n h => by
    have hcapacity : (e.opened n).capacity = e.capacity := by
      rw [opened_eq]
      exact Bank.capacity_mapActiveIdx _ _
    rw [opened_eq] at hcapacity ⊢
    exact ⟨h.rate, hcapacity ▸ h.capacity, h.sound, h.tuned⟩
  perform := fun {e} event h => h.congr (background_perform e event)
  rendered := fun {e n} places _ h => h.congr (background_renderVoices e n places)
  dropPending := fun {e} h => h.congr (by
    simp [background, Engine.dropPending, Bank.mapAll, capacity, Bank.capacity])

end Settings

end Engine

/-- The glide time that the settings ask for in a role. -/
def Settings.glideOf (s : Settings) : Role → Float32
  | .pitch => s.glide
  | .pitchBend => s.glide
  | .gate => 0.0
  | .velocity => 0.0
  | .drift => driftSeconds
  | _ => s.gestureGlide

/-- The regimes of all ramps. -/
def Controls.regimes (c : Controls) (role : Role) : Regime :=
  (c.get role).regime

namespace Controls

section Regimes

@[simp] theorem regimes_scheduleAll (c : Controls) (changes : Role → List Change) :
    (c.scheduleAll changes).regimes = c.regimes := by
  funext role
  unfold regimes
  rw [get_scheduleAll, Ramp.regime_scheduleAll]

theorem regimes_scheduleMod
    (c : Controls) (slot : Nat) (value : Float32) (offset : Nat) :
    (c.scheduleMod slot value offset).regimes = c.regimes := by
  funext role
  rcases slot with _ | _ | _ | slot <;> cases role <;> rfl

theorem regimes_mute (c : Controls) :
    c.mute.regimes = c.regimes := by
  funext role
  cases role <;> rfl

theorem regimes_dropPending (c : Controls) :
    c.dropPending.regimes = c.regimes := by
  funext role
  unfold dropPending regimes
  rw [get_map]
  rfl

/-- Glide times are distributed by role. -/
theorem get_withGlides (c : Controls) (s : Settings) (role : Role) :
    (c.withGlides s.glide s.gestureGlide driftSeconds).get role
      = (c.get role).withGlide (s.glideOf role) := by
  cases role <;> rfl

end Regimes

end Controls

namespace Engine

section Regimes

/-- The regimes of all ramps of an engine. -/
structure Regimes where
  voices : List (Role → Regime)
  main : Role → Regime
  bends : List Regime

/-- The regimes of all ramps of an engine. -/
def regimes (e : Engine) : Regimes where
  voices := e.bank.voices.map fun v => v.toControls.regimes
  main := e.main.regimes
  bends := e.channelBends.map Ramp.regime

variable {e f : Engine}

/-- Doing something to voices, main channel and bends that keeps the regimes. -/
theorem regimes_congr
    (hvoices : f.bank.voices.map (fun v => v.toControls.regimes)
      = e.bank.voices.map fun v => v.toControls.regimes)
    (hmain : f.main.regimes = e.main.regimes)
    (hbends : f.channelBends.map Ramp.regime = e.channelBends.map Ramp.regime) :
    f.regimes = e.regimes := by
  unfold regimes
  rw [hvoices, hmain, hbends]

theorem regimes_dropPending (e : Engine) :
    e.dropPending.regimes = e.regimes := by
  refine regimes_congr ?_ (Controls.regimes_dropPending _) ?_
  · show (e.bank.voices.map _).map _ = _
    rw [List.map_map]
    exact List.map_congr_left fun v _ => Controls.regimes_dropPending _
  · show (e.channelBends.map _).map _ = _
    rw [List.map_map]
    rfl

theorem regimes_silence (e : Engine) :
    e.silence.regimes = e.regimes := by
  have hdrop (c : Controls) : c.dropPending.mute.regimes = c.regimes := by
    rw [Controls.regimes_mute, Controls.regimes_dropPending]
  refine regimes_congr ?_ (hdrop _) ?_
  · show (e.bank.voices.map _).map _ = _
    rw [List.map_map]
    exact List.map_congr_left fun v _ => hdrop v.toControls
  · show (e.channelBends.map _).map _ = _
    rw [List.map_map]
    rfl

theorem regimes_openVoice (goals : List Float32) (n id : Nat) (v : Voice) :
    (openVoice goals n id v).toControls.regimes = v.toControls.regimes := by
  have hgrow : (v.grow n).toControls.regimes = v.toControls.regimes :=
    congrArg Controls.regimes (v.toControls_grow n)
  have hdrift (w : Voice) (goal : Float32) :
      ({ w with drift := w.drift.schedule goal 1 } : Voice).toControls.regimes
        = w.toControls.regimes := by
    funext role
    cases role <;> rfl
  unfold openVoice
  split
  · exact (hdrift _ _).trans hgrow
  · exact hgrow

theorem regimes_opened (e : Engine) (n : Nat) :
    (e.opened n).regimes = e.regimes := by
  rw [opened_eq]
  refine regimes_congr ?_ rfl rfl
  refine map_mapIdx_of_eq (fun id v => ?_) e.bank.voices
  split
  · exact regimes_openVoice _ n id v
  · rfl

theorem regimes_mainAfter (e : Engine) (event : Event) :
    (e.mainAfter event).regimes = e.main.regimes := by
  have hbind : (bindAxis e.settings event e.main).regimes = e.main.regimes := by
    rw [bindAxis_eq]
    cases axis? e.settings event.number with
    | none => rfl
    | some slot => exact Controls.regimes_scheduleMod _ _ _ _
  unfold mainAfter
  split
  · split
    · split
      · rfl
      · exact hbind
    · funext role
      cases role <;> rfl
    · funext role
      cases role <;> rfl
    · rfl
  · rfl

theorem regimes_bendsAfter (e : Engine) (event : Event) :
    (e.bendsAfter event).map Ramp.regime = e.channelBends.map Ramp.regime := by
  unfold bendsAfter
  split
  · split
    · rfl
    · apply List.ext_getElem?
      intro k
      rw [List.getElem?_map, List.getElem?_map, List.getElem?_modify]
      cases e.channelBends[k]? with
      | none => rfl
      | some r =>
          dsimp only [Option.map_eq_map, Option.map_some]
          split <;> rfl
  · rfl

theorem regimes_perform (e : Engine) (event : Event) :
    (e.perform event).regimes = e.regimes := by
  cases hsilent : e.silences event with
  | true =>
      rw [perform_of_silences hsilent]
      exact regimes_silence e
  | false =>
      have hbuses := buses_perform hsilent
      have hmain : (e.perform event).main = e.mainAfter event := congrArg Buses.main hbuses
      have hbends : (e.perform event).channelBends = e.bendsAfter event :=
        congrArg Buses.channelBends hbuses
      refine regimes_congr ?_ ?_ ?_
      · rw [voices_perform hsilent]
        refine map_mapIdx_of_eq (fun id v => ?_) e.bank.voices
        split
        · dsimp only
          rw [Answer.take_eq]
          exact Controls.regimes_scheduleAll _ _
        · rfl
      · rw [hmain, regimes_mainAfter]
      · rw [hbends, regimes_bendsAfter]

theorem regimes_renderVoice
    (c : BlockContext) (id : Nat) (v : Voice)
    (h : 0 < c.frames) :
    (c.renderVoice id v).2.toControls.regimes = v.toControls.regimes := by
  funext role
  unfold Controls.regimes
  rw [BlockContext.get_renderVoice c id v role h]
  split
  · exact Ramp.regime_iterate_next _ _
  · rfl

theorem regimes_sharedSignals
    {n : Nat} (e : Engine)
    (h : 0 < n) :
    (e.sharedSignals n).2.main.regimes = e.main.regimes
      ∧ (e.sharedSignals n).2.channelBends.map Ramp.regime
        = e.channelBends.map Ramp.regime := by
  have hrender (r : Ramp) : (r.render n).2.regime = r.regime := r.regime_render h
  unfold sharedSignals
  cases e.settings.protocol with
  | conventional => exact ⟨rfl, rfl⟩
  | continuousTouch => exact ⟨rfl, rfl⟩
  | expressive =>
      constructor
      · funext role
        cases role <;> first | rfl | exact hrender _
      · show ((e.channelBends.map _).map _).map _ = _
        rw [List.map_map, List.map_map]
        exact List.map_congr_left fun r _ => hrender r

theorem regimes_renderVoices
    {n : Nat} (e : Engine) (places : Nat)
    (h : 0 < n) :
    (e.renderVoices n places).2.regimes = e.regimes := by
  obtain ⟨hmain, hbends⟩ := e.regimes_sharedSignals h
  rw [renderVoices_snd]
  refine regimes_congr ?_ hmain hbends
  refine map_mapIdx_of_eq (fun id v => ?_) e.bank.voices
  split
  · exact regimes_renderVoice _ id v h
  · rfl

end Regimes

section Regulation

variable {e f : Engine}

/-- The regime that the settings ask for in a role. -/
def regime (e : Engine) (role : Role) : Regime :=
  .of e.sampleRate (e.settings.glideOf role)

/-- Every ramp follows the settings, and every channel has a bend. -/
structure Regulated (e : Engine) : Prop where
  voices : ∀ asked ∈ e.regimes.voices, asked = e.regime
  main : e.regimes.main = e.regime
  bends : e.regimes.bends = List.replicate channelCount (e.regime .pitchBend)

theorem Regulated.congr
    (h : e.Regulated)
    (hregime : f.regime = e.regime)
    (hregimes : f.regimes = e.regimes) :
    f.Regulated := by
  constructor
  · rw [hregimes, hregime]
    exact h.voices
  · rw [hregimes, hregime]
    exact h.main
  · rw [hregimes, hregime]
    exact h.bends

/-- The ramps of a voice follow the settings. -/
theorem Regulated.voice
    (h : e.Regulated)
    {v : Voice}
    (hv : v ∈ e.bank.voices) :
    v.toControls.regimes = e.regime :=
  h.voices _ (List.mem_map_of_mem hv)

/-- The bend of a channel follows the settings. -/
theorem Regulated.bend
    (h : e.Regulated)
    {r : Ramp}
    (hr : r ∈ e.channelBends) :
    r.regime = e.regime .pitchBend := by
  have hmem : r.regime ∈ e.regimes.bends := List.mem_map_of_mem hr
  rw [h.bends] at hmem
  exact List.eq_of_mem_replicate hmem

/-- Every ramp has the sample rate of the engine, and every channel has a bend. -/
structure Rated (e : Engine) : Prop where
  voices : ∀ v ∈ e.bank.voices, ∀ role, (v.toControls.get role).sampleRate = e.sampleRate
  main : ∀ role, (e.main.get role).sampleRate = e.sampleRate
  bends : ∀ r ∈ e.channelBends, r.sampleRate = e.sampleRate
  channels : e.channelBends.length = channelCount

theorem Regulated.rated
    (h : e.Regulated) :
    e.Rated := by
  have hregime (c : Controls) (hc : c.regimes = e.regime) (role : Role) :
      (c.get role).sampleRate = e.sampleRate :=
    congrArg Regime.sampleRate (congrFun hc role)
  constructor
  · intro v hv role
    exact hregime _ (h.voice hv) role
  · exact hregime _ h.main
  · intro r hr
    exact congrArg Regime.sampleRate (h.bend hr)
  · have hlength := congrArg List.length h.bends
    rw [List.length_replicate] at hlength
    simpa [regimes] using hlength

/-- Once glide times are distributed, every ramp follows the settings. -/
theorem Rated.distributeGlides
    (h : e.Rated) :
    e.distributeGlides.Regulated := by
  have hregime (c : Controls) (hc : ∀ role, (c.get role).sampleRate = e.sampleRate) :
      (c.withGlides e.settings.glide e.settings.gestureGlide driftSeconds).regimes
        = e.regime := by
    funext role
    unfold Controls.regimes
    rw [Controls.get_withGlides, Ramp.regime_withGlide, hc]
    rfl
  constructor
  · intro asked hasked
    obtain ⟨w, hw, rfl⟩ := List.mem_map.1 hasked
    obtain ⟨v, hv, rfl⟩ := List.mem_map.1 hw
    exact hregime _ (h.voices v hv)
  · exact hregime _ h.main
  · show (e.channelBends.map fun r => r.withGlide e.settings.glide).map Ramp.regime = _
    rw [List.map_map, List.eq_replicate_iff]
    refine ⟨(List.length_map _).trans h.channels, ?_⟩
    intro asked hasked
    obtain ⟨r, hr, rfl⟩ := List.mem_map.1 hasked
    rw [Function.comp_apply, Ramp.regime_withGlide, h.bends r hr]
    rfl

/-- The ramps of a reachable engine follow its settings. -/
theorem regulated_invariant : EngineInvariant Regulated where
  idle := fun queue t _ _ _ => by
    refine Rated.distributeGlides ⟨?_, ?_, ?_, List.length_replicate⟩
    · intro v hv role
      rw [List.eq_of_mem_replicate hv]
      cases role <;> rfl
    · intro role
      cases role <;> rfl
    · intro r hr
      rw [List.eq_of_mem_replicate hr]
  around := fun _ _ _ _ _ _ _ h => ⟨h.voices, h.main, h.bends⟩
  rerated := fun {e rate} _ h => by
    refine Rated.distributeGlides ⟨?_, ?_, ?_, (List.length_map _).trans h.rated.channels⟩
    · intro w hw role
      obtain ⟨v, _, rfl⟩ := List.mem_map.1 hw
      exact congrArg Ramp.sampleRate (Controls.get_map _ v.toControls role)
    · intro role
      exact congrArg Ramp.sampleRate (Controls.get_map _ e.main role)
    · intro r hr
      obtain ⟨s, _, rfl⟩ := List.mem_map.1 hr
      rfl
  resettled := fun {e} next h =>
    have hresettled : (e.resettled next).Rated :=
      ⟨h.rated.voices, h.rated.main, h.rated.bends, h.rated.channels⟩
    hresettled.distributeGlides
  silence := fun {e} h => h.congr rfl (regimes_silence e)
  opened := fun {e} n h => h.congr (by rw [opened_eq]; rfl) (regimes_opened e n)
  perform := fun {e} event h => by
    refine h.congr ?_ (regimes_perform e event)
    have hback := background_perform e event
    have hsettings : (e.perform event).settings = e.settings :=
      congrArg Background.settings hback
    have hrate : (e.perform event).sampleRate = e.sampleRate :=
      congrArg Background.sampleRate hback
    funext role
    unfold regime
    rw [hsettings, hrate]
  rendered := fun {e n} places hn h =>
    h.congr (by rw [renderVoices_snd]; rfl) (regimes_renderVoices e places hn)
  dropPending := fun {e} h => h.congr rfl (regimes_dropPending e)

/-- Every channel of a reachable engine has a bend. -/
theorem length_channelBends
    (h : e.Regulated) :
    e.channelBends.length = channelCount :=
  h.rated.channels

end Regulation

end Engine
end Polyphony
