import Polyphony.Proofs.Engine.Buses
import Polyphony.Proofs.Engine.Census

/-!
# What notes do not depend on

Which voice plays which note, and what an event asks of it, does not depend on
the ramps of the voices, on the bends of the channels or on the queue.  An engine
without them, a bare engine, answers alike.

**Results.**
* `choose?_bare`: a bare bank lets the same voice play a new note.
* `answer_bare`: a bare engine asks the same of every voice.
* `bare_perform`: what an event leaves of a bare engine.
-/

namespace Polyphony

/-- A voice without its ramps. -/
def Voice.bare (v : Voice) : Voice :=
  { v with toControls := Controls.resting 0.0 }

namespace Bank

section Choosing

/-- A bank of voices without their ramps. -/
def bare (b : Bank) : Bank :=
  b.mapAll Voice.bare

theorem voice?_bare (b : Bank) (id : Nat) :
    b.bare.voice? id = (b.voice? id).map Voice.bare := by
  exact List.getElem?_map

theorem active_bare (b : Bank) :
    b.bare.active = b.active.map Voice.bare := by
  exact List.map_take.symm

theorem isFree_bare (b : Bank) :
    b.bare.isFree = b.isFree := by
  funext id
  unfold isFree
  rw [voice?_bare]
  cases b.voice? id <;> rfl

theorem free?_bare (b : Bank) (rotate : Bool) :
    b.bare.free? rotate = b.free? rotate := by
  unfold free?
  rw [isFree_bare]
  rfl

/-- A tournament that does not look at the ramps has the same winner without them. -/
theorem foldl_challenge_bare
    (better : Voice → Voice → Bool)
    (hbetter : ∀ v w, better v.bare w.bare = better v w)
    (entrants : List (Nat × Voice)) :
    ∀ best : Option (Nat × Voice),
      (entrants.map (Prod.map id Voice.bare)).foldl (challenge better)
          (best.map (Prod.map id Voice.bare))
        = (entrants.foldl (challenge better) best).map (Prod.map id Voice.bare) := by
  induction entrants with
  | nil => exact fun best => rfl
  | cons next entrants ih =>
      intro best
      have hstep :
          challenge better (best.map (Prod.map id Voice.bare)) (next.map id Voice.bare)
            = (challenge better best next).map (Prod.map id Voice.bare) := by
        cases best with
        | none => rfl
        | some held =>
            show (if better next.2.bare held.2.bare then _ else _) = _
            rw [hbetter]
            unfold challenge
            dsimp only
            split <;> rfl
      rw [List.map_cons, List.foldl_cons, List.foldl_cons, hstep]
      exact ih _

theorem oldestSustained?_bare (b : Bank) :
    b.bare.oldestSustained? = b.oldestSustained? := by
  have hentrants :
      (b.bare.active.zipIdx.map Prod.swap).filter (fun p => p.2.phase == .sustained)
        = ((b.active.zipIdx.map Prod.swap).filter fun p => p.2.phase == .sustained).map
            (Prod.map id Voice.bare) := by
    rw [active_bare, List.zipIdx_map, List.map_map, List.filter_map, List.filter_map,
      List.map_map]
    rfl
  unfold oldestSustained?
  dsimp only
  rw [hentrants]
  have hfold := foldl_challenge_bare (fun v w => decide (w.age < v.age))
    (fun _ _ => rfl)
    ((b.active.zipIdx.map Prod.swap).filter fun p => p.2.phase == .sustained) none
  rw [Option.map_none] at hfold
  rw [hfold, Option.map_map]
  rfl

theorem nearest_bare (b : Bank) (note : Float32) :
    b.bare.nearest note = b.nearest note := by
  unfold nearest
  rw [active_bare, List.zipIdx_map, List.foldl_map]
  rfl

/-- Which voice plays a new note does not depend on ramps. -/
theorem choose?_bare (b : Bank) (note : Float32) (rotate : Bool) :
    b.bare.choose? note rotate = b.choose? note rotate := by
  unfold choose?
  rw [free?_bare, oldestSustained?_bare, nearest_bare]
  rfl

end Choosing

end Bank

namespace Engine

section Bare

variable {e f : Engine} {event : Event}

/-- An engine without the ramps of its voices, the bends of the channels and the queue. -/
def bare (e : Engine) : Engine :=
  { e with
    queue := .empty 0
    channelBends := []
    bank := e.bank.bare }

/-- What no event changes, but for the queue and the number of voices. -/
def backdrop (e : Engine) : Background :=
  { e.background with queue := .empty 0, capacity := 0 }

theorem tenancies_bare (e : Engine) :
    e.bare.bank.voices.map Voice.toTenancy = e.bank.voices.map Voice.toTenancy := by
  exact List.map_map

/-- Engines that agree in all but ramps, bends and queue are bare alike. -/
theorem bare_congr
    (hback : f.backdrop = e.backdrop)
    (htables : f.tables = e.tables)
    (hrotation : f.bank.rotation = e.bank.rotation)
    (htenancies : f.bank.voices.map Voice.toTenancy = e.bank.voices.map Voice.toTenancy)
    (hmain : f.main = e.main) :
    f.bare = e.bare := by
  have hvoices (g : Engine) :
      g.bank.voices.map Voice.bare
        = (g.bank.voices.map Voice.toTenancy).map fun toTenancy =>
            ({ toTenancy, toControls := Controls.resting 0.0 } : Voice) := by
    rw [List.map_map]
    rfl
  have hbank : f.bank.bare = e.bank.bare := by
    have hcount : f.bank.count = e.bank.count := congrArg Background.count hback
    unfold Bank.bare Bank.mapAll
    rw [hvoices, hvoices, htenancies, hrotation, hcount]
  unfold bare
  rw [Engine.mk.injEq]
  exact ⟨congrArg Background.settings hback, congrArg Tables.pedal htables,
    congrArg Background.clock hback, congrArg Background.tuningShift hback, hbank, hmain, rfl,
    congrArg Tables.held htables, congrArg Tables.displaced htables, rfl,
    congrArg Background.mailbox hback, congrArg Background.staged hback,
    congrArg Background.drift hback, congrArg Background.temperament hback,
    congrArg Background.sampleRate hback, congrArg Background.library hback⟩

theorem voice?_bare (e : Engine) (id : Nat) :
    e.bare.bank.voice? id = (e.bank.voice? id).map Voice.bare :=
  e.bank.voice?_bare id

theorem choose?_bare (e : Engine) (event : Event) :
    e.bare.choose? event = e.choose? event :=
  e.bank.choose?_bare event.first e.settings.rotate

theorem isSounding_bare (e : Engine) (source : UInt32) :
    e.bare.isSounding source = e.isSounding source := by
  unfold isSounding
  rw [voice?_bare]
  cases e.bank.voice? 0 <;> rfl

theorem soundingEvent?_bare (e : Engine) :
    e.bare.soundingEvent? = e.soundingEvent? := by
  unfold soundingEvent?
  rw [voice?_bare]
  cases e.bank.voice? 0 with
  | none => rfl
  | some v =>
      show Option.map _ (Option.filter _ (some v.bare)) = Option.map _ (Option.filter _ (some v))
      rw [Option.filter_some, Option.filter_some]
      show Option.map _ (if (v.phase == .held) = true then _ else _)
        = Option.map _ (if (v.phase == .held) = true then _ else _)
      split <;> rfl

/-- What an event asks of a voice does not depend on ramps. -/
theorem answer_bare (e : Engine) (event : Event) (id : Nat) (tn : Tenancy) :
    e.bare.answer event id tn = e.answer event id tn := by
  cases hkind : event.kind with
  | noteOn =>
      simp only [answer, hkind, noteOnAnswer, choose?_bare]
      rfl
  | noteOff =>
      simp only [answer, hkind, noteOffAnswer, isSounding_bare]
      rfl
  | noteUpdate => simp only [answer, hkind]
  | sustain => simp only [answer, hkind]
  | null => simp only [answer, hkind]
  | _ =>
      simp only [answer, hkind]
      rfl

theorem heldAfter_bare (e : Engine) (event : Event) :
    e.bare.heldAfter event = e.heldAfter event := by
  unfold heldAfter
  rw [choose?_bare, soundingEvent?_bare]
  rfl

theorem displacedAfter_bare (e : Engine) (event : Event) :
    e.bare.displacedAfter event = e.displacedAfter event := by
  unfold displacedAfter
  rw [isSounding_bare, soundingEvent?_bare]
  rfl

theorem rotationAfter_bare (e : Engine) (event : Event) :
    e.bare.rotationAfter event = e.rotationAfter event := by
  unfold rotationAfter
  rw [choose?_bare]
  rfl

/-- Doing the same to all voices, with or without their ramps. -/
theorem tenancies_mapAll_bare
    {act : Voice → Voice}
    (hact : ∀ v, (act v.bare).toTenancy = (act v).toTenancy)
    (b : Bank) :
    (b.bare.mapAll act).voices.map Voice.toTenancy = (b.mapAll act).voices.map Voice.toTenancy := by
  unfold Bank.bare Bank.mapAll
  dsimp only
  rw [List.map_map, List.map_map, List.map_map]
  apply List.map_congr_left
  intro v _
  exact hact v

theorem bare_distributeGlides (e : Engine) :
    e.bare.distributeGlides.bare = e.distributeGlides.bare :=
  bare_congr rfl rfl rfl (tenancies_mapAll_bare (fun _ => rfl) e.bank) rfl

theorem bare_silence (e : Engine) :
    e.bare.silence.bare = e.silence.bare :=
  bare_congr rfl rfl rfl (tenancies_mapAll_bare (fun _ => rfl) e.bank) rfl

theorem bare_reset (e : Engine) :
    e.bare.reset.bare = e.reset.bare :=
  bare_congr rfl rfl rfl (tenancies_mapAll_bare (fun _ => rfl) e.bank) rfl

/-- The engine at another sample rate, before glides are distributed. -/
def rerated (e : Engine) (rate : Float32) : Engine :=
  { e with
    sampleRate := rate
    bank := e.bank.withSampleRate rate
    main := e.main.withSampleRate rate
    channelBends := e.channelBends.map fun r => r.withSampleRate rate
    drift := e.drift.withSampleRate rate }

theorem withSampleRate_eq (e : Engine) (rate : Float32) :
    e.withSampleRate rate
      = if isSampleRate rate then .ok () (e.rerated rate).distributeGlides
        else .error (.invalidSampleRate rate) e := by
  rfl

theorem operate_setSampleRate (e : Engine) (rate : Float32) :
    e.operate (.setSampleRate rate)
      = if isSampleRate rate then (e.rerated rate).distributeGlides else e := by
  unfold operate
  dsimp only
  rw [withSampleRate_eq]
  cases isSampleRate rate <;> rfl

theorem bare_rerated (e : Engine) (rate : Float32) :
    (e.bare.rerated rate).bare = (e.rerated rate).bare :=
  bare_congr rfl rfl rfl (tenancies_mapAll_bare (fun _ => rfl) e.bank) rfl

/-- New settings are admitted without regard to ramps. -/
theorem admitted_bare (e : Engine) (next : Settings) :
    e.bare.admitted next = e.admitted next := by
  have hcapacity : e.bare.capacity = e.capacity := List.length_map _
  unfold admitted
  rw [hcapacity]
  rfl

/-- The engine with new settings, before glides are distributed and notes are silenced. -/
def resettled (e : Engine) (next : Settings) : Engine :=
  { e with
    settings := e.admitted next
    bank := e.bank.withCount (e.admitted next).voices
    tuningShift := (Tuning.masterOffset e.library.log2
      (next.repaired e.settings).masterTune).getD e.tuningShift
    drift := if startsDrift e.settings (e.admitted next) then e.drift.restart else e.drift }

theorem adopt_eq (e : Engine) (next : Settings) :
    e.adopt next
      = if changesNotes e.settings (e.admitted next) then
          (e.resettled next).distributeGlides.silence
        else (e.resettled next).distributeGlides := by
  rfl

theorem bare_bare (e : Engine) :
    e.bare.bare = e.bare :=
  bare_congr rfl rfl rfl (tenancies_bare e) rfl

theorem bare_resettled (e : Engine) (next : Settings) :
    (e.bare.resettled next).bare = (e.resettled next).bare := by
  have hcount (count : Nat) : e.bare.bank.withCount count = (e.bank.withCount count).bare := by
    have hcapacity : e.bare.bank.capacity = e.bank.capacity := List.length_map _
    unfold Bank.withCount
    rw [hcapacity]
    rfl
  have hresettled : e.bare.resettled next = (e.resettled next).bare := by
    unfold resettled
    rw [admitted_bare, hcount]
    rfl
  rw [hresettled, bare_bare]

theorem bare_perform (e : Engine) (event : Event) :
    (e.bare.perform event).bare = (e.perform event).bare := by
  cases hsilent : e.silences event with
  | true =>
      have hsilent' : e.bare.silences event = true := hsilent
      rw [perform_of_silences hsilent, perform_of_silences hsilent']
      exact bare_silence e
  | false =>
      have hsilent' : e.bare.silences event = false := hsilent
      have hback : (e.bare.perform event).backdrop = (e.perform event).backdrop := by
        unfold backdrop
        rw [background_perform, background_perform]
        rfl
      have htables : (e.bare.perform event).tables = (e.perform event).tables := by
        rw [tables_perform hsilent, tables_perform hsilent', heldAfter_bare,
          displacedAfter_bare]
        rfl
      have hrotation :
          (e.bare.perform event).bank.rotation = (e.perform event).bank.rotation := by
        rw [rotation_perform hsilent, rotation_perform hsilent', rotationAfter_bare]
      have htenancies :
          (e.bare.perform event).census.tenancies = (e.perform event).census.tenancies := by
        rw [census_perform hsilent, census_perform hsilent']
        unfold censusAfter census
        simp only [answer_bare, tenancies_bare]
        rfl
      have hmain : (e.bare.perform event).main = (e.perform event).main :=
        (congrArg Buses.main (buses_perform hsilent')).trans
          (congrArg Buses.main (buses_perform hsilent)).symm
      exact bare_congr hback htables hrotation htenancies hmain

/-- The drift goals that are drawn when a block of `n` frames begins. -/
def openingGoals (e : Engine) (n : Nat) : List Float32 :=
  if 0.0 < e.settings.drift ∧ e.drift.isDue then
    (Drift.goals e.bank.count 0 (e.drift.advance n)).1
  else []

/-- The drift when a block of `n` frames has begun. -/
def openingDrift (e : Engine) (n : Nat) : Drift :=
  if 0.0 < e.settings.drift then
    if e.drift.isDue then (Drift.goals e.bank.count 0 (e.drift.advance n)).2
    else e.drift.advance n
  else e.drift

/-- A voice that plays notes when a block of `n` frames has begun. -/
def openVoice (goals : List Float32) (n id : Nat) (v : Voice) : Voice :=
  match goals[id]? with
  | some goal => { v.grow n with drift := (v.grow n).drift.schedule goal 1 }
  | none => v.grow n

/-- The engine when a block of `n` frames has begun. -/
theorem opened_eq (e : Engine) (n : Nat) :
    e.opened n =
      { e with
        queue := e.queue.dropBefore (e.clock + n)
        drift := e.openingDrift n
        bank := e.bank.mapActiveIdx (openVoice (e.openingGoals n) n) } := by
  have hgrown :
      e.growVoices n = { e with bank := e.bank.mapActiveIdx (openVoice [] n) } := by
    rfl
  unfold opened
  rw [queue_prepare, clock_prepare]
  unfold prepare runDrift openingGoals openingDrift
  rw [hgrown]
  dsimp only
  by_cases hdrifts : 0.0 < e.settings.drift
  · cases hdue : e.drift.isDue with
    | false =>
        simp only [if_pos hdrifts, Bool.false_eq_true, and_false, if_false]
    | true =>
        simp only [hdrifts, if_true, and_self]
        unfold drawDrift scheduleDrift
        dsimp only
        rw [Bank.mapActiveIdx_mapActiveIdx]
        rfl
  · simp only [hdrifts, false_and, if_false]

theorem bare_opened (e : Engine) (n : Nat) :
    (e.bare.opened n).bare = (e.opened n).bare := by
  have htenancies :
      (e.bare.opened n).census.tenancies = (e.opened n).census.tenancies := by
    rw [census_opened, census_opened]
    unfold Roster.grown census
    rw [tenancies_bare]
    rfl
  refine bare_congr ?_ ?_ ?_ htenancies ?_
  all_goals
    rw [opened_eq, opened_eq]
    rfl

theorem main_sharedSignals_bare (e : Engine) (n : Nat) :
    (e.bare.sharedSignals n).2.main = (e.sharedSignals n).2.main := by
  have hsettings : e.bare.settings = e.settings := rfl
  unfold sharedSignals
  rw [hsettings]
  cases e.settings.protocol with
  | conventional => rfl
  | expressive => rfl
  | continuousTouch => rfl

/-- Rendering uses only the controls of the main channel and the voices themselves. -/
theorem bare_renderVoices (e : Engine) (n places : Nat) :
    (e.bare.renderVoices n places).2.bare = (e.renderVoices n places).2.bare := by
  have hback (f : Engine) : (f.renderVoices n places).2.backdrop = f.backdrop := by
    unfold backdrop
    rw [background_renderVoices]
  have htables (f : Engine) : (f.renderVoices n places).2.tables = f.tables := by
    rw [renderVoices_snd]
    rfl
  have hrotation (f : Engine) : (f.renderVoices n places).2.bank.rotation = f.bank.rotation := by
    rw [renderVoices_snd]
  have htenancies (f : Engine) :
      (f.renderVoices n places).2.bank.voices.map Voice.toTenancy
        = f.bank.voices.map Voice.toTenancy := by
    rw [renderVoices_snd]
    refine map_mapIdx_of_eq (fun id v => ?_) f.bank.voices
    split
    · exact BlockContext.tenancy_renderVoice _ id v
    · rfl
  have hmain (f : Engine) :
      (f.renderVoices n places).2.main = (f.sharedSignals n).2.main := by
    rw [renderVoices_snd]
  refine bare_congr ?_ ?_ ?_ ?_ ?_
  · rw [hback, hback]
    rfl
  · rw [htables, htables]
    rfl
  · rw [hrotation, hrotation]
    rfl
  · rw [htenancies, htenancies, tenancies_bare]
  · rw [hmain, hmain, main_sharedSignals_bare]

theorem bare_finish (e : Engine) (n : Nat) :
    (e.bare.finish n).bare = (e.finish n).bare :=
  bare_congr rfl rfl rfl (tenancies_mapAll_bare (fun _ => rfl) e.bank) rfl

end Bare

end Engine
end Polyphony
