import Polyphony.Proofs.Engine.Concord

/-!
# The census of an engine

The roster of an engine knows its tenancies up to their ages.  The census knows
the ages as well.  It changes when notes start and end, when the pedal moves, when
a block makes busy voices older, when new settings are applied, and in silence;
nothing else reaches it.

**Results.**
* `census_perform`: the census after an event that does not silence.
* `CensusInvariant.of_midway`: what holds of every silent census, and is kept by
  notes, the pedal, the end of all notes, new settings and the passing of time,
  holds of every reachable engine, also within a block.
-/

namespace Polyphony

namespace Tenancy

/-- Counts the frames of a block, if a note is on. -/
def grow (tn : Tenancy) (frames : Nat) : Tenancy :=
  if tn.phase != .off then { tn with age := tn.age + frames } else tn

theorem phase_grow (tn : Tenancy) (frames : Nat) :
    (tn.grow frames).phase = tn.phase := by
  unfold grow
  split <;> rfl

theorem owner_grow (tn : Tenancy) (frames : Nat) :
    (tn.grow frames).owner = tn.owner := by
  unfold grow
  split <;> rfl

theorem event_grow (tn : Tenancy) (frames : Nat) :
    (tn.grow frames).event = tn.event := by
  unfold grow
  split <;> rfl

end Tenancy

theorem Voice.tenancy_grow (v : Voice) (frames : Nat) :
    (v.grow frames).toTenancy = v.toTenancy.grow frames := by
  unfold Voice.grow Tenancy.grow Voice.isBusy
  split
  · rfl
  · rfl

/-- A voice that grows older plays on as it did. -/
theorem Voice.toControls_grow (v : Voice) (frames : Nat) :
    (v.grow frames).toControls = v.toControls := by
  unfold Voice.grow
  split <;> rfl

namespace Roster

/-- A roster without notes, with `size` voices. -/
def silent
    (settings : Settings)
    (pedal : Bool)
    (count size : Nat) :
    Roster where
  settings := settings
  pedal := pedal
  count := count
  held := .empty
  displaced := .empty
  tenancies := List.replicate size {}

/-- The roster after the busy voices that play have grown older. -/
def grown (r : Roster) (frames : Nat) : Roster :=
  { r with
    tenancies := r.tenancies.mapIdx fun id tn =>
      if id < r.count then tn.grow frames else tn }

theorem active_grown (r : Roster) (frames : Nat) :
    (r.grown frames).active = r.active.map fun tn => tn.grow frames := by
  unfold active grown
  apply List.ext_getElem?
  intro id
  simp only [List.getElem?_take, List.getElem?_mapIdx, List.getElem?_map]
  by_cases hid : id < r.count
  · simp [hid]
  · simp [hid]

end Roster

namespace Engine

section Census

variable {e : Engine} {event : Event}

/-- The roster with the ages of the tenancies. -/
def census (e : Engine) : Roster :=
  { e.roster with tenancies := e.bank.voices.map Voice.toTenancy }

theorem active_census (e : Engine) :
    e.census.active = e.bank.active.map Voice.toTenancy := by
  exact List.map_take.symm

/-- The census is the roster and the tenancies. -/
theorem census_congr
    {f : Engine}
    (hroster : f.roster = e.roster)
    (htenancies : f.bank.voices.map Voice.toTenancy = e.bank.voices.map Voice.toTenancy) :
    f.census = e.census := by
  unfold census
  rw [hroster, htenancies]

theorem tenancies_distributeGlides (e : Engine) :
    e.distributeGlides.bank.voices.map Voice.toTenancy
      = e.bank.voices.map Voice.toTenancy := by
  exact List.map_map

theorem census_distributeGlides (e : Engine) :
    e.distributeGlides.census = e.census :=
  census_congr (roster_distributeGlides e) (tenancies_distributeGlides e)

theorem tenancies_withSampleRate
    {after : Engine} {rate : Float32}
    (h : e.withSampleRate rate = .ok () after) :
    after.bank.voices.map Voice.toTenancy = e.bank.voices.map Voice.toTenancy := by
  unfold withSampleRate at h
  split at h
  · cases h
    rw [tenancies_distributeGlides]
    exact List.map_map
  · cases h

/-- A quiet operation does not change the census. -/
theorem census_operate
    (e : Engine) {op : Operation}
    (hquiet : op.isQuiet = true) :
    (e.operate op).census = e.census := by
  refine census_congr (roster_operate e hquiet) ?_
  cases op with
  | attachMailbox => rfl
  | post s =>
      rw [operate_post]
  | stage s => rfl
  | push event =>
      obtain ⟨_, -, hpush⟩ := exists_operate_push e event
      rw [hpush]
  | setSampleRate rate =>
      rcases operate_setSampleRate_cases e rate with hrate | hsame
      · exact tenancies_withSampleRate hrate
      · rw [hsame]
  | setTemperament t => rfl
  | setClock time => rfl
  | silence => cases hquiet
  | reset => cases hquiet
  | process frames out => cases hquiet

theorem census_idle
    (capacity : Nat) (rate : Float32) (queue : EventQueue) (t : Temperament) (library : Library) :
    (idle capacity rate queue t library).census = .silent {} false 0 capacity := by
  unfold idle
  rw [census_distributeGlides]
  unfold census roster Roster.silent Bank.idle
  dsimp only
  rw [List.map_replicate]
  rfl

theorem census_silence (e : Engine) :
    e.silence.census = .silent e.settings e.pedal e.bank.count e.bank.voices.length := by
  have hvacant :
      (e.bank.voices.map fun v => v.vacate.dropPending.mute).map Voice.toTenancy
        = List.replicate e.bank.voices.length {} := by
    rw [List.map_map, List.eq_replicate_iff]
    refine ⟨List.length_map _, ?_⟩
    intro tn htn
    obtain ⟨v, _, rfl⟩ := List.mem_map.1 htn
    rfl
  unfold census silence Roster.silent
  dsimp only [Bank.mapAll, Bank.rewind]
  rw [hvacant]
  rfl

/-- A block makes the busy voices that play older before anything is performed. -/
theorem census_opened (e : Engine) (n : Nat) :
    (e.opened n).census = e.census.grown n := by
  have hgrown :
      (e.growVoices n).bank.voices.map Voice.toTenancy = (e.census.grown n).tenancies := by
    show (e.bank.voices.mapIdx _).map _ = (e.bank.voices.map _).mapIdx _
    apply List.ext_getElem?
    intro id
    simp only [List.getElem?_map, List.getElem?_mapIdx, Option.map_map]
    congr 1
    funext v
    show Voice.toTenancy (if id < e.bank.count then v.grow n else v)
      = if id < e.bank.count then v.toTenancy.grow n else v.toTenancy
    rw [apply_ite Voice.toTenancy, Voice.tenancy_grow]
  have hdrift (f : Engine) :
      (f.runDrift n).bank.voices.map Voice.toTenancy
        = f.bank.voices.map Voice.toTenancy := by
    unfold runDrift
    split
    · dsimp only
      split
      · refine map_mapIdx_of_eq (fun id v => ?_) f.bank.voices
        split
        · dsimp only
          split <;> rfl
        · rfl
      · rfl
    · rfl
  have htenancies :
      (e.opened n).bank.voices.map Voice.toTenancy = (e.census.grown n).tenancies :=
    (hdrift (e.growVoices n)).trans hgrown
  have hroster : (e.opened n).roster = e.roster := roster_prepare e n
  unfold census Roster.grown
  rw [htenancies, hroster]
  rfl

/-- What comes after the events of a block does not change the census. -/
theorem census_renderBlock (e : Engine) (n : Nat) (out : Buffer) :
    (e.renderBlock n out).1.census = (e.performed n).census := by
  refine census_congr (roster_renderBlock e n out) ?_
  have hfinish (f : Engine) :
      (f.finish n).bank.voices.map Voice.toTenancy = f.bank.voices.map Voice.toTenancy := by
    exact List.map_map
  rw [renderBlock_fst, hfinish, renderVoices_snd]
  refine map_mapIdx_of_eq (fun id v => ?_) (e.performed n).bank.voices
  split
  · exact BlockContext.tenancy_renderVoice _ id v
  · rfl

end Census

section Performing

variable {e : Engine} {event : Event}

/-- The census after an event that does not silence. -/
def censusAfter (e : Engine) (event : Event) : Roster where
  settings := e.settings
  pedal := e.pedalAfter event
  count := e.bank.count
  held := e.heldAfter event
  displaced := e.displacedAfter event
  tenancies := e.census.tenancies.mapIdx fun id tn =>
    if id < e.bank.count then (e.answer event id tn).tenancy tn else tn

/-- Unless it silences, an event makes the tenancies of the voices that play take their answers. -/
theorem census_perform
    (hsilent : e.silences event = false) :
    (e.perform event).census = e.censusAfter event := by
  have htables := tables_perform hsilent
  have hback := background_perform e event
  have hsettings : (e.perform event).settings = e.settings := congrArg Background.settings hback
  have hcount : (e.perform event).bank.count = e.bank.count := congrArg Background.count hback
  have hpedal : (e.perform event).pedal = e.pedalAfter event := congrArg Tables.pedal htables
  have hheld : (e.perform event).held = e.heldAfter event := congrArg Tables.held htables
  have hdisplaced : (e.perform event).displaced = e.displacedAfter event :=
    congrArg Tables.displaced htables
  have htenancies :
      (e.perform event).bank.voices.map Voice.toTenancy = (e.censusAfter event).tenancies := by
    rw [voices_perform hsilent]
    show (e.bank.voices.mapIdx _).map _ = (e.bank.voices.map _).mapIdx _
    apply List.ext_getElem?
    intro id
    simp only [List.getElem?_map, List.getElem?_mapIdx, Option.map_map]
    congr 1
    funext v
    show Voice.toTenancy (if id < e.bank.count then _ else v)
      = if id < e.bank.count then _ else v.toTenancy
    rw [apply_ite Voice.toTenancy, Answer.take_eq]
  unfold census roster
  rw [htenancies, hsettings, hcount, hpedal, hheld, hdisplaced]
  rfl

/-- Events that neither start nor end notes nor move the pedal leave the census alone. -/
theorem census_perform_other
    (hsilent : e.silences event = false)
    (hnotes : e.obeys allNotesOff event = false)
    (hon : event.kind ≠ .noteOn)
    (hoff : event.kind ≠ .noteOff)
    (hsustain : event.kind ≠ .sustain) :
    (e.perform event).census = e.census := by
  have hheld : e.heldAfter event = e.held := by
    unfold heldAfter
    split <;> simp_all
  have hdisplaced : e.displacedAfter event = e.displaced := by
    unfold displacedAfter
    split <;> simp_all
  have hpedal : e.pedalAfter event = e.pedal := by
    unfold pedalAfter
    rw [if_neg hsustain]
  have hsame :
      (e.census.tenancies.mapIdx fun id tn =>
        if id < e.bank.count then (e.answer event id tn).tenancy tn else tn)
        = e.census.tenancies := by
    apply List.ext_getElem?
    intro id
    simp [tenancy_answer hnotes hon hoff hsustain]
  rw [census_perform hsilent]
  unfold censusAfter
  rw [hheld, hdisplaced, hpedal, hsame]
  rfl

/-- The tenancies of the voices that play, after an event that does not silence. -/
theorem active_censusAfter (e : Engine) (event : Event) :
    (e.censusAfter event).active
      = e.census.active.mapIdx fun id tn => (e.answer event id tn).tenancy tn := by
  unfold censusAfter Roster.active
  apply List.ext_getElem?
  intro id
  simp only [List.getElem?_take, List.getElem?_mapIdx]
  show (if id < e.bank.count then _ else none)
    = Option.map _ (if id < e.bank.count then e.census.tenancies[id]? else none)
  by_cases hid : id < e.bank.count
  · simp [hid]
  · simp [hid]

end Performing

end Engine

/-- What holds of every silent census and is kept by all that changes one. -/
structure CensusInvariant (P : Roster → Prop) : Prop where
  silent : ∀ settings pedal count size, count ≤ size → P (.silent settings pedal count size)
  resettled : ∀ (r : Roster) (settings : Settings),
    settings.voices = r.settings.voices →
    settings.unison = r.settings.unison →
    P r → P { r with settings }
  grown : ∀ r frames, P r → P (Roster.grown r frames)
  pressed : ∀ (e : Engine) event, e.roster.Concordant → event.kind = .noteOn →
    P e.census → P (e.censusAfter event)
  released : ∀ (e : Engine) event, e.roster.Concordant → event.kind = .noteOff →
    P e.census → P (e.censusAfter event)
  pedalled : ∀ (e : Engine) event, e.roster.Concordant → event.kind = .sustain →
    P e.census → P (e.censusAfter event)
  ended : ∀ (e : Engine) event, e.roster.Concordant → e.obeys allNotesOff event = true →
    P e.census → P (e.censusAfter event)

namespace CensusInvariant

section Invariants

variable {P : Roster → Prop} {e : Engine}

theorem silence
    (hinv : CensusInvariant P)
    (hconcord : e.roster.Concordant) :
    P e.silence.census := by
  rw [Engine.census_silence]
  exact hinv.silent _ _ _ _ hconcord.fits_voices

theorem reset
    (hinv : CensusInvariant P)
    (hconcord : e.roster.Concordant) :
    P e.reset.census := by
  have hreset : e.reset.census = .silent e.settings false e.bank.count e.bank.voices.length := by
    have hsilence := congrArg (fun r : Roster => { r with pedal := false })
      (Engine.census_silence e)
    exact hsilence
  rw [hreset]
  exact hinv.silent _ _ _ _ hconcord.fits_voices

theorem perform
    (hinv : CensusInvariant P)
    (hconcord : e.roster.Concordant)
    (event : Event)
    (h : P e.census) :
    P (Engine.perform e event).census := by
  cases hsilent : e.silences event with
  | true =>
      rw [Engine.perform_of_silences hsilent]
      exact hinv.silence hconcord
  | false =>
      rw [Engine.census_perform hsilent]
      by_cases hon : event.kind = .noteOn
      · exact hinv.pressed e event hconcord hon h
      by_cases hoff : event.kind = .noteOff
      · exact hinv.released e event hconcord hoff h
      by_cases hsustain : event.kind = .sustain
      · exact hinv.pedalled e event hconcord hsustain h
      cases hnotes : e.obeys allNotesOff event with
      | true => exact hinv.ended e event hconcord hnotes h
      | false =>
          rw [← Engine.census_perform hsilent,
            Engine.census_perform_other hsilent hnotes hon hoff hsustain]
          exact h

theorem performAll
    (hinv : CensusInvariant P)
    (hconcord : e.roster.Concordant)
    (events : List Event)
    (h : P e.census) :
    P (events.foldl Engine.perform e).census := by
  induction events generalizing e with
  | nil => exact h
  | cons event events ih =>
      exact ih (Engine.concordant_perform hconcord) (hinv.perform hconcord event h)

/-- New settings silence if they change the voices or unison, and else leave the notes alone. -/
theorem adopt
    (hinv : CensusInvariant P)
    (hconcord : e.roster.Concordant)
    (next : Settings)
    (h : P e.census) :
    P (Engine.adopt e next).census := by
  have hle : (e.admitted next).voices ≤ e.bank.capacity := Engine.voices_admitted_le e next
  unfold Engine.adopt
  dsimp only
  split
  case isTrue =>
    rw [Engine.census_silence]
    refine hinv.silent _ _ _ _ ?_
    show min (e.admitted next).voices e.bank.capacity ≤ (e.bank.voices.map _).length
    rw [List.length_map]
    exact Nat.min_le_right _ _
  case isFalse hchange =>
    obtain ⟨hvoices, hunison⟩ : (e.admitted next).voices = e.settings.voices
        ∧ (e.admitted next).unison = e.settings.unison := by
      simpa [Engine.changesNotes] using hchange
    have hcount : min (e.admitted next).voices e.bank.capacity = e.bank.count := by
      rw [Nat.min_eq_left hle, hvoices]
      exact hconcord.counted.symm
    rw [Engine.census_distributeGlides]
    have hkept := hinv.resettled e.census (e.admitted next) hvoices hunison h
    unfold Engine.census Engine.roster Bank.withCount
    dsimp only
    rw [hcount]
    exact hkept

theorem adoptAwaited
    (hinv : CensusInvariant P)
    (hconcord : e.roster.Concordant)
    (h : P e.census) :
    P e.adoptAwaited.census := by
  unfold Engine.adoptAwaited
  split
  · have htaken : P e.taken.census := h
    exact hinv.adopt (e := e.taken) hconcord _ htaken
  · exact h

theorem opened
    (hinv : CensusInvariant P)
    (hconcord : e.roster.Concordant)
    (n : Nat)
    (h : P e.census) :
    P (e.adoptAwaited.opened n).census := by
  rw [Engine.census_opened]
  exact hinv.grown _ n (hinv.adoptAwaited hconcord h)

theorem process
    (hinv : CensusInvariant P)
    (hconcord : e.roster.Concordant)
    (frames : Nat) (out : Buffer)
    (h : P e.census) :
    P (Engine.process e frames out).1.census := by
  unfold Engine.process
  dsimp only
  split
  · exact hinv.adoptAwaited hconcord h
  · rw [Engine.census_renderBlock, Engine.performed_eq]
    exact hinv.performAll (Engine.concordant_invariant.opened _ hconcord) _
      (hinv.opened hconcord _ h)

/-- An invariant of censuses holds of every engine that a host reaches. -/
theorem of_reachable
    (hinv : CensusInvariant P)
    (h : Engine.Reachable e) :
    P e.census := by
  induction h with
  | build h =>
      rw [Engine.eq_idle_of_build h, Engine.census_idle]
      exact hinv.silent _ _ _ _ (Nat.zero_le _)
  | @operate e op hreach _ ih =>
      have hconcord := Engine.concordant_invariant.of_reachable hreach
      cases hquiet : op.isQuiet with
      | true =>
          rw [Engine.census_operate e hquiet]
          exact ih
      | false =>
          cases op with
          | silence => exact hinv.silence hconcord
          | reset => exact hinv.reset hconcord
          | process frames out => exact hinv.process hconcord frames out ih
          | _ => cases hquiet

/-- It also holds of the engines within a block. -/
theorem of_midway
    (hinv : CensusInvariant P)
    (h : Engine.Midway e) :
    P e.census := by
  induction h with
  | boundary h => exact hinv.of_reachable h
  | opened h n =>
      exact hinv.opened (Engine.concordant_invariant.of_reachable h) n (hinv.of_reachable h)
  | perform h event ih => exact hinv.perform (Engine.concordant_invariant.of_midway h) event ih

end Invariants

end CensusInvariant
end Polyphony
