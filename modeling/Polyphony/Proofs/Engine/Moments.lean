import Polyphony.Proofs.Engine.Census

/-!
# An engine from moment to moment

The life of an engine is a run of moments.  In each of them an event is performed,
or waiting settings are applied, or a block begins or ends, or the host does
something.  A moment cannot be divided, so what is true of a voice at every point of
a run is true of it after each of its moments.

**Attained.**  An engine is attained if it arises from building one, moment by
moment.  The moments may come in any order, so that all engines that a host reaches
are attained, those within a block, and more.

**Results.**
* `operate_eq_run`: everything that a host does is a run of moments.
* `Midway.attained`: an engine that a host reaches is attained, also within a block.
* `tenancy?_after`: what a moment does to the tenancy of a voice.
* `pedal_run`: where the pedal is after a run.
-/

namespace Polyphony

/-- What happens to an engine, in parts that cannot be divided. -/
inductive Moment
  /-- An event is performed. -/
  | play (event : Event)
  /-- The host does something that leaves the notes alone. -/
  | manage (op : Operation) (quiet : op.isQuiet = true)
  /-- The host silences the engine. -/
  | silence
  /-- The host resets the engine. -/
  | reset
  /-- The settings that wait are applied. -/
  | adopt
  /-- A block of `n` frames begins. -/
  | enter (n : Nat)
  /-- A block of `n` frames ends; it is written out for the voices that have places. -/
  | leave (n places : Nat)

namespace Engine

section Runs

/-- The engine after a moment. -/
def after (e : Engine) : Moment → Engine
  | .play event => e.perform event
  | .manage op _ => e.operate op
  | .silence => e.silence
  | .reset => e.reset
  | .adopt => e.adoptAwaited
  | .enter n => e.opened n
  | .leave n places => (e.renderVoices n places).2.finish n

/-- The engine after several moments. -/
def run (e : Engine) (moments : List Moment) : Engine :=
  moments.foldl after e

@[simp] theorem run_nil (e : Engine) : e.run [] = e := by
  rfl

@[simp] theorem run_cons (e : Engine) (m : Moment) (moments : List Moment) :
    e.run (m :: moments) = (e.after m).run moments := by
  rfl

@[simp] theorem run_append (e : Engine) (before later : List Moment) :
    e.run (before ++ later) = (e.run before).run later := by
  exact List.foldl_append

/-- The moments of a block of `n` frames, once the settings have been applied. -/
def blockMoments (e : Engine) (n places : Nat) : List Moment :=
  .enter n :: (((e.prepare n).due n).map fun event => .play ((e.prepare n).localEvent event))
    ++ [.leave n places]

/-- The moments of which an operation consists. -/
def momentsOf (e : Engine) : Operation → List Moment
  | .attachMailbox => [.manage .attachMailbox rfl]
  | .post s => [.manage (.post s) rfl]
  | .stage s => [.manage (.stage s) rfl]
  | .push event => [.manage (.push event) rfl]
  | .setSampleRate rate => [.manage (.setSampleRate rate) rfl]
  | .setTemperament t => [.manage (.setTemperament t) rfl]
  | .setClock time => [.manage (.setClock time) rfl]
  | .silence => [.silence]
  | .reset => [.reset]
  | .process frames out =>
      let n := blockLength frames out
      .adopt :: if n = 0 then [] else e.adoptAwaited.blockMoments n out.voices

theorem run_play (events : List Event) (e : Engine) :
    e.run (events.map .play) = events.foldl perform e := by
  exact List.foldl_map

/-- A block begins, its events are performed, and it ends. -/
theorem renderBlock_eq_run (e : Engine) (n : Nat) (out : Buffer) :
    (e.renderBlock n out).1 = e.run (e.blockMoments n out.voices) := by
  have hplay : ((e.prepare n).due n).map (fun event => Moment.play ((e.prepare n).localEvent event))
      = (((e.prepare n).due n).map (e.prepare n).localEvent).map .play := by
    rw [List.map_map]
    rfl
  unfold blockMoments
  rw [hplay, List.cons_append, run_cons, run_append, run_play, renderBlock_fst, performed_eq]
  rfl

/-- Everything that a host does is a run of moments. -/
theorem operate_eq_run (e : Engine) (op : Operation) :
    e.operate op = e.run (e.momentsOf op) := by
  cases op with
  | process frames out =>
      show (e.process frames out).1 = _
      unfold process momentsOf
      dsimp only
      rw [run_cons]
      by_cases hn : blockLength frames out = 0
      · rw [if_pos hn, if_pos hn]
        rfl
      · rw [if_neg hn, if_neg hn]
        exact renderBlock_eq_run _ _ _
  | _ => rfl

/-- The moments of operations one after the other. -/
def momentsOfAll : Engine → List Operation → List Moment
  | _, [] => []
  | e, op :: ops => e.momentsOf op ++ momentsOfAll (e.operate op) ops

theorem operateAll_eq_run (ops : List Operation) (e : Engine) :
    ops.foldl operate e = e.run (e.momentsOfAll ops) := by
  induction ops generalizing e with
  | nil => rfl
  | cons op ops ih =>
      rw [List.foldl_cons, ih, momentsOfAll, run_append, ← operate_eq_run]

/-- The engines that arise from building one, moment by moment. -/
inductive Attained : Engine → Prop
  | build
      {capacity queueLength : Nat} {rate : Float32} {t : Temperament} {library : Library}
      {e : Engine}
      (h : Engine.build capacity rate (EventQueue.empty queueLength) t library = .ok e) :
      Attained e
  | after
      {e : Engine}
      (h : Attained e)
      (m : Moment) :
      Attained (e.after m)

variable {e : Engine}

theorem Attained.run
    (h : Attained e)
    (moments : List Moment) :
    Attained (e.run moments) := by
  induction moments generalizing e with
  | nil => exact h
  | cons m moments ih => exact ih (h.after m)

theorem Reachable.attained
    (h : Reachable e) :
    Attained e := by
  induction h with
  | build h => exact .build h
  | @operate e op _ _ ih =>
      rw [operate_eq_run]
      exact ih.run _

/-- What a host reaches is attained, and so is what it does not see of a block. -/
theorem Midway.attained
    (h : Midway e) :
    Attained e := by
  induction h with
  | boundary h => exact h.attained
  | opened h n => exact (h.attained.after .adopt).after (.enter n)
  | perform _ event ih => exact ih.after (.play event)

end Runs

section Invariants

variable {P : Roster → Prop} {e : Engine}

theorem roster_leave (e : Engine) (n places : Nat) :
    (e.after (.leave n places)).roster = e.roster := by
  show ((e.renderVoices n places).2.finish n).roster = e.roster
  rw [roster_finish, roster_renderVoices]

theorem census_leave (e : Engine) (n places : Nat) :
    (e.after (.leave n places)).census = e.census := by
  refine census_congr (roster_leave e n places) ?_
  have hfinish (f : Engine) :
      (f.finish n).bank.voices.map Voice.toTenancy = f.bank.voices.map Voice.toTenancy := by
    exact List.map_map
  show ((e.renderVoices n places).2.finish n).bank.voices.map Voice.toTenancy = _
  rw [hfinish, renderVoices_snd]
  refine map_mapIdx_of_eq (fun id v => ?_) e.bank.voices
  split
  · exact BlockContext.tenancy_renderVoice _ id v
  · rfl

/-- What events, silence and settings keep is kept by every moment. -/
theorem RosterInvariant.after
    (hinv : RosterInvariant P)
    (h : P e.roster)
    (m : Moment) :
    P (e.after m).roster := by
  cases m with
  | play event => exact hinv.perform e event h
  | manage op hquiet =>
      show P (e.operate op).roster
      rw [roster_operate e hquiet]
      exact h
  | silence => exact hinv.silence e h
  | reset => exact hinv.reset e h
  | adopt => exact hinv.adoptAwaited h
  | enter n =>
      have hroster : (e.opened n).roster = e.roster := roster_prepare e n
      show P (e.opened n).roster
      rw [hroster]
      exact h
  | leave n places =>
      rw [roster_leave]
      exact h

/-- An invariant of rosters holds of every engine that is attained. -/
theorem RosterInvariant.of_attained
    (hinv : RosterInvariant P)
    (h : Attained e) :
    P e.roster := by
  induction h with
  | build h =>
      rw [eq_idle_of_build h]
      exact hinv.idle _ _ _ _ _
  | after _ m ih => exact hinv.after ih m

theorem Attained.concordant
    (h : Attained e) :
    e.roster.Concordant :=
  concordant_invariant.of_attained h

/-- What the moments of a census keep is kept by every moment of an engine. -/
theorem CensusInvariant.after
    (hinv : CensusInvariant P)
    (hconcord : e.roster.Concordant)
    (h : P e.census)
    (m : Moment) :
    P (e.after m).census := by
  cases m with
  | play event => exact hinv.perform hconcord event h
  | manage op hquiet =>
      show P (e.operate op).census
      rw [census_operate e hquiet]
      exact h
  | silence => exact hinv.silence hconcord
  | reset => exact hinv.reset hconcord
  | adopt => exact hinv.adoptAwaited hconcord h
  | enter n =>
      show P (e.opened n).census
      rw [census_opened]
      exact hinv.grown _ n h
  | leave n places =>
      rw [census_leave]
      exact h

/-- An invariant of censuses holds of every engine that is attained. -/
theorem CensusInvariant.of_attained
    (hinv : CensusInvariant P)
    (h : Attained e) :
    P e.census := by
  induction h with
  | build h =>
      rw [eq_idle_of_build h, census_idle]
      exact hinv.silent _ _ _ _ (Nat.zero_le _)
  | after h m ih => exact CensusInvariant.after hinv h.concordant ih m

end Invariants

section Voices

variable {e : Engine}

/-- The tenancy of the voice with a number. -/
def tenancy? (e : Engine) (id : Nat) : Option Tenancy :=
  (e.bank.voice? id).map Voice.toTenancy

/-- Whether the settings that wait silence the engine. -/
def adoptClears (e : Engine) : Bool :=
  e.awaited?.any fun next => changesNotes e.settings (e.admitted next)

/-- Whether a moment ends all notes at once. -/
def clears (e : Engine) : Moment → Bool
  | .play event => e.obeys allSoundOff event || e.obeys allNotesOff event
  | .manage _ _ => false
  | .silence => true
  | .reset => true
  | .adopt => e.adoptClears
  | .enter _ => false
  | .leave _ _ => false

/-- No event but a controller ends all notes. -/
theorem clears_of_kind
    {event : Event}
    (h : event.kind ≠ .controller) :
    e.clears (.play event) = false := by
  rw [Bool.eq_false_iff]
  intro hclear
  rcases (Bool.or_eq_true _ _).mp hclear with hsound | hnotes
  · exact h (kind_of_obeys hsound)
  · exact h (kind_of_obeys hnotes)

/-- An event that ends all notes without silence is the message to do so. -/
theorem obeys_of_clears
    {event : Event}
    (hclear : e.clears (.play event) = true)
    (hsilent : e.silences event = false) :
    e.obeys allNotesOff event = true := by
  rcases (Bool.or_eq_true _ _).mp hclear with hsound | hnotes
  · exact absurd (hsilent.symm.trans hsound) Bool.false_ne_true
  · exact hnotes

/-- The tenancy that a moment leaves to the voice with a number. -/
def tenancyAfter (e : Engine) (m : Moment) (id : Nat) (tn : Tenancy) : Tenancy :=
  match m with
  | .play event =>
      if e.silences event then {}
      else if id < e.bank.count then (e.answer event id tn).tenancy tn
      else tn
  | .manage _ _ => tn
  | .silence => {}
  | .reset => {}
  | .adopt => if e.adoptClears then {} else tn
  | .enter n => if id < e.bank.count then tn.grow n else tn
  | .leave _ _ => tn

theorem tenancy?_eq (e : Engine) (id : Nat) :
    e.tenancy? id = e.census.tenancies[id]? := by
  exact List.getElem?_map.symm

theorem tenancy?_of_census
    {f : Engine}
    (h : f.census = e.census)
    (id : Nat) :
    f.tenancy? id = e.tenancy? id := by
  rw [tenancy?_eq, tenancy?_eq, h]

theorem tenancy?_silence (e : Engine) (id : Nat) :
    e.silence.tenancy? id = (e.tenancy? id).map fun _ => {} := by
  unfold tenancy? silence Bank.voice? Bank.mapAll Bank.rewind
  dsimp only
  rw [List.getElem?_map, Option.map_map, Option.map_map]
  rfl

theorem tenancy?_perform (e : Engine) (event : Event) (id : Nat) :
    (e.perform event).tenancy? id = (e.tenancy? id).map (e.tenancyAfter (.play event) id) := by
  have hafter : e.tenancyAfter (.play event) id = fun tn =>
      if e.silences event then {}
      else if id < e.bank.count then (e.answer event id tn).tenancy tn
      else tn := by
    rfl
  rw [hafter]
  cases hsilent : e.silences event with
  | true =>
      rw [perform_of_silences hsilent, tenancy?_silence]
      rfl
  | false =>
      rw [tenancy?_eq, tenancy?_eq, census_perform hsilent]
      exact List.getElem?_mapIdx

theorem tenancy?_adoptAwaited (e : Engine) (id : Nat) :
    e.adoptAwaited.tenancy? id = (e.tenancy? id).map (e.tenancyAfter .adopt id) := by
  have hglides (f : Engine) : f.distributeGlides.tenancy? id = f.tenancy? id :=
    tenancy?_of_census (census_distributeGlides f) id
  unfold adoptAwaited tenancyAfter adoptClears
  cases e.awaited? with
  | none => simp
  | some next =>
      have hsame : changesNotes e.taken.settings (e.taken.admitted next)
          = changesNotes e.settings (e.admitted next) := by
        rfl
      show (e.taken.adopt next).tenancy? id = _
      unfold adopt
      dsimp only
      rw [hsame, Option.any_some]
      cases changesNotes e.settings (e.admitted next) with
      | true =>
          rw [if_pos rfl, tenancy?_silence, hglides]
          rfl
      | false =>
          rw [if_neg Bool.false_ne_true, hglides]
          show _ = Option.map (fun tn => tn) _
          rw [Option.map_id']
          rfl

/-- What a moment does to the tenancy of a voice. -/
theorem tenancy?_after (e : Engine) (m : Moment) (id : Nat) :
    (e.after m).tenancy? id = (e.tenancy? id).map (e.tenancyAfter m id) := by
  cases m with
  | play event => exact tenancy?_perform e event id
  | manage op hquiet =>
      refine (tenancy?_of_census (census_operate e hquiet) id).trans ?_
      show _ = Option.map (fun tn => tn) _
      rw [Option.map_id']
  | silence => exact tenancy?_silence e id
  | reset => exact tenancy?_silence e id
  | adopt => exact tenancy?_adoptAwaited e id
  | enter n =>
      show (e.opened n).tenancy? id = _
      rw [tenancy?_eq, tenancy?_eq, census_opened]
      show (e.census.tenancies.mapIdx _)[id]? = _
      rw [List.getElem?_mapIdx]
      rfl
  | leave n places =>
      refine (tenancy?_of_census (census_leave e n places) id).trans ?_
      show _ = Option.map (fun tn => tn) _
      rw [Option.map_id']

end Voices

section Regimes

variable {e : Engine} {m : Moment}

/-- Settings that do not end all notes leave the number of voices and all notes alone. -/
theorem roster_adopt
    {next : Settings}
    (hcounted : e.bank.count = e.settings.voices)
    (hkeep : changesNotes e.settings (e.admitted next) = false) :
    (e.adopt next).roster = { e.roster with settings := e.admitted next } := by
  have hsame : (e.admitted next).voices = e.settings.voices := by
    simp only [changesNotes, Bool.or_eq_false_iff, bne_eq_false_iff_eq] at hkeep
    exact hkeep.1
  have hle : (e.admitted next).voices ≤ e.bank.capacity := voices_admitted_le e next
  have hcount : min (e.admitted next).voices e.bank.capacity = e.bank.count := by
    rw [Nat.min_eq_left hle, hsame, hcounted]
  unfold adopt
  dsimp only
  rw [hkeep, if_neg Bool.false_ne_true, roster_distributeGlides]
  show { e.roster with
    settings := e.admitted next
    count := min (e.admitted next).voices e.bank.capacity } = _
  rw [hcount]
  rfl

theorem roster_adoptAwaited
    (hcounted : e.bank.count = e.settings.voices)
    (hkeep : e.adoptClears = false) :
    ∃ s : Settings, s.unison = e.settings.unison
      ∧ e.adoptAwaited.roster = { e.roster with settings := s } := by
  unfold adoptClears at hkeep
  unfold adoptAwaited
  cases hawaited : e.awaited? with
  | none => exact ⟨e.settings, rfl, rfl⟩
  | some next =>
      rw [hawaited, Option.any_some] at hkeep
      have htaken : changesNotes e.taken.settings (e.taken.admitted next) = false := hkeep
      simp only [changesNotes, Bool.or_eq_false_iff, bne_eq_false_iff_eq] at hkeep
      have hadopt : (e.taken.adopt next).roster = { e.roster with settings := e.admitted next } :=
        roster_adopt hcounted htaken
      exact ⟨e.admitted next, hkeep.2, hadopt⟩

/-- Only what ends all notes changes the number of voices, or turns unison on or off. -/
theorem regime_after
    (hcounted : e.bank.count = e.settings.voices)
    (hclear : e.clears m = false) :
    (e.after m).settings.unison = e.settings.unison
      ∧ (e.after m).bank.count = e.bank.count := by
  have hroster {f : Engine} (h : f.roster = e.roster) :
      f.settings.unison = e.settings.unison ∧ f.bank.count = e.bank.count :=
    ⟨congrArg (fun r : Roster => r.settings.unison) h, congrArg Roster.count h⟩
  cases m with
  | play event =>
      have hback := background_perform e event
      exact ⟨congrArg (fun b : Background => b.settings.unison) hback,
        congrArg Background.count hback⟩
  | manage op hquiet => exact hroster (roster_operate e hquiet)
  | silence => cases hclear
  | reset => cases hclear
  | adopt =>
      obtain ⟨s, hunison, hroster⟩ := roster_adoptAwaited hcounted hclear
      have hsettings : (e.after .adopt).settings = s := congrArg Roster.settings hroster
      rw [hsettings]
      exact ⟨hunison, congrArg Roster.count hroster⟩
  | enter n => exact hroster (roster_prepare e n)
  | leave n places => exact hroster (roster_leave e n places)

end Regimes

section Pedal

/-- Where the pedal is after a moment, from where it was before. -/
def pedalSince (down : Bool) : Moment → Bool
  | .play event => if event.kind = .sustain then event.pressesPedal else down
  | .reset => false
  | _ => down

theorem pedal_adoptAwaited (e : Engine) :
    e.adoptAwaited.pedal = e.pedal := by
  unfold adoptAwaited
  cases e.awaited? with
  | none => rfl
  | some next =>
      show (e.taken.adopt next).pedal = _
      unfold adopt
      dsimp only
      split
      · rfl
      · rfl

theorem pedal_after (e : Engine) (m : Moment) :
    (e.after m).pedal = pedalSince e.pedal m := by
  have hroster {f : Engine} (h : f.roster = e.roster) : f.pedal = e.pedal :=
    congrArg Roster.pedal h
  cases m with
  | play event =>
      cases hsilent : e.silences event with
      | true =>
          have hkind : event.kind = .controller := kind_of_obeys hsilent
          show (e.perform event).pedal = if event.kind = .sustain then _ else _
          rw [perform_of_silences hsilent, hkind]
          rfl
      | false => exact congrArg Tables.pedal (tables_perform hsilent)
  | manage op hquiet => exact hroster (roster_operate e hquiet)
  | silence => rfl
  | reset => rfl
  | adopt => exact pedal_adoptAwaited e
  | enter n => exact hroster (roster_prepare e n)
  | leave n places => exact hroster (roster_leave e n places)

/-- The pedal after a run is known from its moments. -/
theorem pedal_run (moments : List Moment) (e : Engine) :
    (e.run moments).pedal = moments.foldl pedalSince e.pedal := by
  induction moments generalizing e with
  | nil => rfl
  | cons m moments ih => rw [run_cons, ih, pedal_after, List.foldl_cons]

end Pedal

end Engine
end Polyphony
