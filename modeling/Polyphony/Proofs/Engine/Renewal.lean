import Polyphony.Proofs.Engine.Gates
import Polyphony.Proofs.Engine.Outline
import Polyphony.Proofs.Engine.Regulation

/-!
# A reset engine is as good as new

A reset leaves traces of what was played before: pitches and modulations stay
where they were, the drift goes on with its random numbers, and the queue still
refuses events that are earlier than the last one.  None of it can be heard in
gates, velocities, voice numbers or aftertouch, nor in which voice plays which
note.

**Pristine engines.**  An engine is pristine if it knows of no note and its muted
ramps rest on zero.  The outline of such an engine is all given by its settings,
its clock and its rates.

**Results.**
* `pristine_of_unplayed`: an engine that never played is pristine.
* `akin_of_pristine`: pristine engines that are set alike have one outline.
* `reset_is_fresh`: what follows a reset is what follows on any fresh engine.
-/

namespace Polyphony

/-- Whether an operation lets an engine accept an event or render frames. -/
def Operation.plays : Operation → Bool
  | .push _ => true
  | .process frames out => Engine.blockLength frames out != 0
  | _ => false

namespace Controls

section Silence

variable {c : Controls}

/-- The muted ramps rest on zero. -/
def IsMute (c : Controls) : Prop :=
  ∀ role : Role, role.isMuted = true → (c.get role).toZero = c.get role

theorem isMute_resting (sampleRate : Float32) :
    (resting sampleRate).IsMute := by
  intro role _
  cases role <;> rfl

theorem isMute_mute (c : Controls) :
    c.mute.IsMute := by
  intro role hmuted
  cases role <;> first | rfl | cases hmuted

theorem IsMute.withSampleRate
    (h : c.IsMute)
    (sampleRate : Float32) :
    (c.withSampleRate sampleRate).IsMute := by
  intro role hmuted
  unfold Controls.withSampleRate
  rw [get_map]
  exact congrArg (fun r => r.withSampleRate sampleRate) (h role hmuted)

theorem IsMute.withGlides
    (h : c.IsMute)
    (s : Settings) :
    (c.withGlides s.glide s.gestureGlide driftSeconds).IsMute := by
  intro role hmuted
  rw [get_withGlides]
  exact congrArg (fun r => r.withGlide (s.glideOf role)) (h role hmuted)

end Silence

end Controls

namespace Engine

section Pristine

variable {e f : Engine}

/-- Without notes, without events, and with the muted ramps on zero. -/
structure Pristine (e : Engine) : Prop where
  tables : e.tables = ⟨.empty, .empty, false⟩
  rotation : e.bank.rotation = 0
  waiting : e.queue.waiting = []
  voices : ∀ v ∈ e.bank.voices, v.toTenancy = {} ∧ v.toControls.IsMute
  main : e.main.IsMute

/-- A reset makes any engine pristine. -/
theorem pristine_reset (e : Engine) :
    e.reset.Pristine where
  tables := rfl
  rotation := rfl
  waiting := rfl
  voices := by
    intro w hw
    obtain ⟨v, _, rfl⟩ := List.mem_map.1 hw
    exact ⟨rfl, Controls.isMute_mute _⟩
  main := Controls.isMute_mute _

theorem Pristine.silence
    (h : e.Pristine) :
    e.silence.Pristine where
  tables := by
    have hpedal : e.pedal = false := congrArg Tables.pedal h.tables
    exact congrArg (Tables.mk .empty .empty) hpedal
  rotation := rfl
  waiting := h.waiting
  voices := (pristine_reset e).voices
  main := (pristine_reset e).main

theorem Pristine.distributeGlides
    (h : e.Pristine) :
    e.distributeGlides.Pristine where
  tables := h.tables
  rotation := h.rotation
  waiting := h.waiting
  voices := by
    intro w hw
    obtain ⟨v, hv, rfl⟩ := List.mem_map.1 hw
    obtain ⟨htenancy, hmute⟩ := h.voices v hv
    exact ⟨htenancy, hmute.withGlides _⟩
  main := h.main.withGlides _

theorem Pristine.rerated
    (h : e.Pristine)
    (rate : Float32) :
    (Engine.rerated e rate).Pristine where
  tables := h.tables
  rotation := h.rotation
  waiting := h.waiting
  voices := by
    intro w hw
    obtain ⟨v, hv, rfl⟩ := List.mem_map.1 hw
    obtain ⟨htenancy, hmute⟩ := h.voices v hv
    exact ⟨htenancy, hmute.withSampleRate rate⟩
  main := h.main.withSampleRate rate

theorem Pristine.adoptAwaited
    (h : e.Pristine) :
    e.adoptAwaited.Pristine := by
  have hresettled (next : Settings) : (e.taken.resettled next).Pristine :=
    ⟨h.tables, h.rotation, h.waiting, h.voices, h.main⟩
  unfold Engine.adoptAwaited
  split
  · rw [adopt_eq]
    split
    · exact (hresettled _).distributeGlides.silence
    · exact (hresettled _).distributeGlides
  · exact h

/-- An engine that never accepted an event or rendered a frame is pristine. -/
theorem pristine_of_unplayed
    (h : ReachableBy (fun _ op => op.plays = false) e) :
    e.Pristine := by
  induction h with
  | build h =>
      rw [eq_idle_of_build h]
      refine Pristine.distributeGlides ⟨rfl, rfl, rfl, ?_, Controls.isMute_resting _⟩
      intro v hv
      rw [List.eq_of_mem_replicate hv]
      exact ⟨rfl, Controls.isMute_resting _⟩
  | @operate e op _ hop ih =>
      cases op with
      | push event => cases hop
      | process frames out =>
          have hzero : blockLength frames out = 0 := by
            simpa [Operation.plays] using hop
          have hprocess : (e.process frames out).1 = e.adoptAwaited := by
            simp only [process, hzero, if_true]
          show (e.process frames out).1.Pristine
          rw [hprocess]
          exact ih.adoptAwaited
      | attachMailbox => exact ⟨ih.tables, ih.rotation, ih.waiting, ih.voices, ih.main⟩
      | post s =>
          rw [operate_post]
          exact ⟨ih.tables, ih.rotation, ih.waiting, ih.voices, ih.main⟩
      | stage s => exact ⟨ih.tables, ih.rotation, ih.waiting, ih.voices, ih.main⟩
      | setSampleRate rate =>
          rw [operate_setSampleRate]
          cases isSampleRate rate with
          | true => exact (ih.rerated rate).distributeGlides
          | false => exact ih
      | setTemperament t => exact ⟨ih.tables, ih.rotation, ih.waiting, ih.voices, ih.main⟩
      | setClock time => exact ⟨ih.tables, ih.rotation, ih.waiting, ih.voices, ih.main⟩
      | silence => exact ih.silence
      | reset => exact pristine_reset e

/-- Pristine engines with one scene, whose ramps follow the settings, have one outline. -/
theorem akin_of_pristine
    (he : e.Pristine ∧ e.Regulated)
    (hf : f.Pristine ∧ f.Regulated)
    (hcapacity : f.capacity = e.capacity)
    (hscene : f.scene = e.scene) :
    Akin e f := by
  obtain ⟨he, hregulated⟩ := he
  obtain ⟨hf, hregulated'⟩ := hf
  have hregime : f.regime = e.regime := by
    have hsettings : f.settings = e.settings := congrArg Background.settings hscene
    have hrate : f.sampleRate = e.sampleRate := congrArg Background.sampleRate hscene
    funext role
    unfold regime
    rw [hsettings, hrate]
  have hcontrols {c d : Controls} (hc : c.IsMute) (hd : d.IsMute)
      (hsame : d.regimes = c.regimes) (role : Role) (hmuted : role.isMuted = true) :
      d.get role = c.get role := by
    rw [← hc role hmuted, ← hd role hmuted]
    exact Ramp.toZero_congr (congrFun hsame role)
  have hvoices : f.bank.voices.map Voice.outline = e.bank.voices.map Voice.outline := by
    have hlength : f.bank.voices.length = e.bank.voices.length := hcapacity
    refine List.ext_getElem (by simpa using hlength) fun id hid hid' => ?_
    rw [List.getElem_map, List.getElem_map]
    have hmem := List.getElem_mem (l := e.bank.voices) (by simpa using hid')
    have hmem' := List.getElem_mem (l := f.bank.voices) (by simpa using hid)
    obtain ⟨htenancy, hmute⟩ := he.voices _ hmem
    obtain ⟨htenancy', hmute'⟩ := hf.voices _ hmem'
    refine Voice.outline_congr (htenancy'.trans htenancy.symm) (hcontrols hmute hmute' ?_)
    exact (hregulated'.voice hmem').trans (hregime.trans (hregulated.voice hmem).symm)
  have hmain : f.main.outline = e.main.outline :=
    Controls.outline_congr (hcontrols he.main hf.main
      (hregulated'.main.trans (hregime.trans hregulated.main.symm)))
  exact outline_congr hscene (hf.tables.trans he.tables.symm)
    (hf.rotation.trans he.rotation.symm) hvoices hmain

end Pristine

section Runs

variable {e f : Engine}

/-- Whether a new note looks for a voice of its own. -/
def seeksVoice (e : Engine) (event : Event) : Bool :=
  event.kind == .noteOn && !e.settings.unison && e.held.freeSlot?.isSome

/-- The voices that are allotted to the new notes among some events. -/
def allottedAll : Engine → List Event → List (Option Choice)
  | _, [] => []
  | e, event :: events =>
      (if e.seeksVoice event then [e.choose? event] else [])
        ++ allottedAll (e.perform event) events

/-- The voices that an operation allots to new notes. -/
def allotted (e : Engine) : Operation → List (Option Choice)
  | .process frames out =>
      if blockLength frames out = 0 then []
      else
        allottedAll (e.adoptAwaited.opened (blockLength frames out))
          (e.adoptAwaited.upcoming (blockLength frames out))
  | _ => []

/-- The voices that a run allots to new notes, one after the other. -/
def allotments : Engine → List Operation → List (Option Choice)
  | _, [] => []
  | e, op :: ops => e.allotted op ++ allotments (e.operate op) ops

/-- A run without its refused pushes has none that is refused, and is the same run. -/
theorem run_heeded (ops : List Operation) :
    ∀ e : Engine, e.HeedsAll (e.heeded ops)
      ∧ (e.heeded ops).foldl Engine.operate e = ops.foldl Engine.operate e
      ∧ e.allotments (e.heeded ops) = e.allotments ops
      ∧ e.outputs (e.heeded ops) = e.outputs ops := by
  induction ops with
  | nil => exact fun e => ⟨trivial, rfl, rfl, rfl⟩
  | cons op ops ih =>
      intro e
      obtain ⟨hheeds, hfold, hallot, hout⟩ := ih (e.operate op)
      cases hop : e.heeds op with
      | true =>
          simp only [heeded, hop, if_true, HeedsAll, List.foldl_cons, allotments, outputs, hfold,
            hallot, hout, true_and, and_true]
          exact hheeds
      | false =>
          have hsame : e.operate op = e := operate_of_not_heeds hop
          have hunseen : e.allotted op = [] ∧ e.output? op = none := by
            cases op with
            | process frames out => cases hop
            | _ => exact ⟨rfl, rfl⟩
          rw [hsame] at hheeds hfold hallot hout
          simp only [heeded, hop, Bool.false_eq_true, if_false, List.foldl_cons, allotments,
            outputs, hsame, hunseen, Option.toList_none, List.nil_append]
          exact ⟨hheeds, hfold, hallot, hout⟩

theorem Akin.allottedAll
    (events : List Event) :
    ∀ {e f : Engine}, Akin e f → f.allottedAll events = e.allottedAll events := by
  induction events with
  | nil => exact fun _ => rfl
  | cons event events ih =>
      intro e f h
      have hseeks : f.seeksVoice event = e.seeksVoice event :=
        h.same (fun k => k.seeksVoice event) fun _ => rfl
      simp only [Engine.allottedAll, hseeks, h.choose?, ih (h.perform event)]

theorem Akin.allotted
    (h : Akin e f)
    (op : Operation) :
    Engine.allotted f op = Engine.allotted e op := by
  cases op with
  | process frames out =>
      simp only [Engine.allotted, h.adoptAwaited.upcoming,
        Akin.allottedAll _ (h.adoptAwaited.opened _)]
  | _ => rfl

/-- The muted streams that an operation writes are the same. -/
theorem Akin.output?
    (h : Akin e f)
    (op : Operation) (id : Nat) {s : Stream}
    (hmuted : s.isMuted = true) :
    (Engine.output? f op).toList.map (fun out => out.stream? id s)
      = (Engine.output? e op).toList.map fun out => out.stream? id s := by
  cases op with
  | process frames out =>
      exact congrArg (fun stream => [stream]) (h.streams frames out id hmuted)
  | _ => rfl

/-- Akin engines stay so and show the same, whatever is done to both. -/
theorem Akin.run
    (ops : List Operation) :
    ∀ {e f : Engine}, Akin e f → e.HeedsAll ops → f.HeedsAll ops →
      Akin (ops.foldl Engine.operate e) (ops.foldl Engine.operate f)
        ∧ f.allotments ops = e.allotments ops
        ∧ ∀ id s, s.isMuted = true →
          (f.outputs ops).map (fun out => out.stream? id s)
            = (e.outputs ops).map fun out => out.stream? id s := by
  induction ops with
  | nil => exact fun h _ _ => ⟨h, rfl, fun _ _ _ => rfl⟩
  | cons op ops ih =>
      intro e f h hheeds hheeds'
      obtain ⟨hakin, hallot, hout⟩ := ih (h.operate hheeds.1 hheeds'.1) hheeds.2 hheeds'.2
      refine ⟨hakin, ?_, fun id s hmuted => ?_⟩
      · simp only [allotments, h.allotted op, hallot]
      · simp only [outputs, List.map_append, h.output? op id hmuted, hout id s hmuted]

end Runs

section Renewal

variable {e f k : Engine}

/-- Whether an engine never played and is set as another one. -/
structure IsFreshAs (e f : Engine) : Prop where
  unplayed : ReachableBy (fun _ op => op.plays = false) f
  capacity : f.capacity = e.capacity
  sampleRate : f.sampleRate = e.sampleRate
  temperament : f.temperament = e.temperament
  clock : f.clock = e.clock
  settings : f.settings = e.settings
  library : f.library = e.library
  attached : f.mailbox.isSome = e.mailbox.isSome
  settled : f.awaited? = none

/-- When no settings wait, nothing is staged and the mailbox is empty. -/
theorem mailbox_of_settled
    (h : e.awaited? = none) :
    e.mailbox = (if e.mailbox.isSome then some .empty else none) ∧ e.staged = none := by
  obtain ⟨hmailbox, hstaged⟩ := Option.or_eq_none_iff.1 h
  refine ⟨?_, hstaged⟩
  cases hm : e.mailbox with
  | none => rfl
  | some m =>
      rw [hm] at hmailbox
      have hnil : m.waiting = [] := List.getLast?_eq_none_iff.1 hmailbox
      exact congrArg (fun waiting => some (Mailbox.mk waiting)) hnil

/-- Engines that are set alike have one scene, when no event and no settings wait. -/
theorem scene_eq
    (he : Reachable e ∧ e.queue.waiting = [] ∧ e.awaited? = none)
    (hf : Reachable f ∧ f.queue.waiting = [] ∧ f.awaited? = none)
    (hfresh : IsFreshAs e f) :
    f.scene = e.scene := by
  obtain ⟨hreach, hwaiting, hawaited⟩ := he
  obtain ⟨hreach', hwaiting', hawaited'⟩ := hf
  have hcount : e.bank.count = e.settings.voices :=
    (concordant_invariant.of_reachable hreach).counted
  have hcount' : f.bank.count = f.settings.voices :=
    (concordant_invariant.of_reachable hreach').counted
  obtain ⟨hmailbox, hstaged⟩ := mailbox_of_settled hawaited
  obtain ⟨hmailbox', hstaged'⟩ := mailbox_of_settled hawaited'
  rw [hfresh.attached, ← hmailbox] at hmailbox'
  unfold scene background
  rw [hwaiting, hwaiting', hfresh.settings, hfresh.clock, hcount, hcount', hfresh.settings,
    hmailbox', hstaged, hstaged', hfresh.temperament, hfresh.sampleRate, hfresh.library]

/-- A reset does not touch what makes another engine fresh. -/
theorem IsFreshAs.reset
    (h : IsFreshAs e f) :
    IsFreshAs e.reset f :=
  { unplayed := h.unplayed
    capacity := h.capacity.trans (congrArg Background.capacity (background_silence e)).symm
    sampleRate := h.sampleRate
    temperament := h.temperament
    clock := h.clock
    settings := h.settings
    library := h.library
    attached := h.attached
    settled := h.settled }

/-- After a reset an engine has the outline of any fresh one. -/
theorem akin_reset
    (h : Reachable e)
    (hawaited : e.awaited? = none)
    (hfresh : IsFreshAs e f) :
    Akin e.reset f := by
  have hreach : Reachable e.reset := h.operateAll [.reset]
  have hreach' : Reachable f := hfresh.unplayed.mono fun _ _ _ => trivial
  have hpristine := pristine_of_unplayed hfresh.unplayed
  exact akin_of_pristine
    ⟨pristine_reset e, regulated_invariant.of_reachable hreach⟩
    ⟨hpristine, regulated_invariant.of_reachable hreach'⟩
    hfresh.reset.capacity
    (scene_eq ⟨hreach, rfl, hawaited⟩ ⟨hreach', hpristine.waiting, hfresh.settled⟩ hfresh.reset)

/-- Settings that are in force are admitted by any engine with enough voices. -/
theorem admitted_settings
    (h : e.WellSet)
    (hvoices : e.settings.voices ≤ k.capacity) :
    k.admitted e.settings = e.settings := by
  have htuned : k.admittedTuning e.settings.masterTune = e.settings.masterTune := by
    unfold admittedTuning Tuning.masterOffset
    rw [if_pos (range_of_masterOffset h.tuned)]
    rfl
  unfold admitted
  rw [Settings.repaired_of_sound h.sound]
  dsimp only
  rw [htuned, Nat.min_eq_left hvoices]

/-- Settings can be applied to an engine that never played without letting it play. -/
theorem exists_unplayed_with
    (hk : ReachableBy (fun _ op => op.plays = false) k)
    (hmailbox : k.mailbox = none)
    (next : Settings) :
    ∃ g, ReachableBy (fun _ op => op.plays = false) g
      ∧ g.capacity = k.capacity
      ∧ g.sampleRate = k.sampleRate
      ∧ g.temperament = k.temperament
      ∧ g.settings = k.admitted next
      ∧ g.library = k.library
      ∧ g.mailbox = none
      ∧ g.staged = none := by
  have hadopted : (k.stage next).adoptAwaited = (k.stage next).taken.adopt next := by
    unfold adoptAwaited awaited? stage
    rw [hmailbox]
    rfl
  refine ⟨(k.stage next).adoptAwaited, ?_, capacity_adoptAwaited (k.stage next), ?_⟩
  · exact hk.operateAll [.stage next, .process 0 (Buffer.silent 0 0)]
      (by simp [Operation.plays, blockLength])
  · have hnone : (k.stage next).taken.mailbox = none :=
      congrArg (Option.map Mailbox.collected) hmailbox
    rw [hadopted, adopt_eq]
    split
    · exact ⟨rfl, rfl, rfl, rfl, hnone, rfl⟩
    · exact ⟨rfl, rfl, rfl, rfl, hnone, rfl⟩

/-- Every engine that a host reaches has fresh ones like it. -/
theorem exists_isFreshAs
    (h : Reachable e) :
    ∃ f, IsFreshAs e f := by
  have hwellSet := wellSet_invariant.of_reachable h
  have hconcord := concordant_invariant.of_reachable h
  have hbuild :
      Engine.build e.capacity e.sampleRate (EventQueue.empty 1) e.temperament e.library
        = .ok (idle e.capacity e.sampleRate (EventQueue.empty 1) e.temperament e.library) := by
    unfold Engine.build
    rw [hwellSet.rate, if_neg (by decide), if_neg (Nat.not_lt.2 hwellSet.capacity)]
  have hbuilt :
      (idle e.capacity e.sampleRate (EventQueue.empty 1) e.temperament e.library).capacity
        = e.capacity := by
    simp [idle, distributeGlides, Bank.mapAll, Bank.idle, capacity, Bank.capacity]
  have hvoices : e.settings.voices ≤ e.capacity := by
    have hcounted : e.bank.count = e.settings.voices := hconcord.counted
    rw [← hcounted]
    exact hconcord.fits_voices
  obtain ⟨g, hunplayed, hcapacity, hrate, htemperament, hsettings, hlibrary, hmailbox, hstaged⟩ :=
    exists_unplayed_with (.build hbuild) rfl e.settings
  rw [admitted_settings hwellSet (le_of_le_of_eq hvoices hbuilt.symm)] at hsettings
  rw [hbuilt] at hcapacity
  have hclock : ReachableBy (fun _ op => op.plays = false) (g.operate (.setClock e.clock)) :=
    .operate hunplayed rfl
  cases hattached : e.mailbox.isSome with
  | false =>
      refine ⟨g.withClock e.clock, hclock, hcapacity, hrate, htemperament, rfl, hsettings,
        hlibrary, ?_, ?_⟩
      · exact (congrArg Option.isSome hmailbox).trans hattached.symm
      · exact Option.or_eq_none_iff.2 ⟨congrArg (Option.bind · Mailbox.newest?) hmailbox, hstaged⟩
  | true =>
      have hattach := hclock.operateAll [.attachMailbox] (by simp [Operation.plays])
      exact ⟨(g.withClock e.clock).attachMailbox, hattach, hcapacity, hrate, htemperament, rfl,
        hsettings, hlibrary, hattached.symm, Option.or_eq_none_iff.2 ⟨rfl, hstaged⟩⟩

/--
When no settings wait, there are fresh engines that are set as a given one, and
what follows its reset is the same as on each of them.  As long as the same pushes
are accepted, the notes, tables and pedal are the same after any operations, new
notes were and would be given to the same voices, and gates, velocities, voice
numbers and aftertouch are the same to the bit.
-/
theorem reset_is_fresh
    (h : Reachable e)
    (hawaited : e.awaited? = none) :
    (∃ f, IsFreshAs e f)
      ∧ ∀ f, IsFreshAs e f → ∀ ops others, f.heeded others = e.reset.heeded ops →
        (others.foldl Engine.operate f).census = (ops.foldl Engine.operate e.reset).census
          ∧ f.allotments others = e.reset.allotments ops
          ∧ (∀ event, (others.foldl Engine.operate f).choose? event
            = (ops.foldl Engine.operate e.reset).choose? event)
          ∧ ∀ id, ∀ s ∈ [Stream.gate, .velocity, .voice, .aftertouch],
            (f.outputs others).map (fun out => out.stream? id s)
              = (e.reset.outputs ops).map fun out => out.stream? id s := by
  refine ⟨exists_isFreshAs h, fun f hfresh ops others hsame => ?_⟩
  obtain ⟨hheeds, hfold, hallot, hout⟩ := run_heeded ops e.reset
  obtain ⟨hheeds', hfold', hallot', hout'⟩ := run_heeded others f
  rw [hsame] at hheeds' hfold' hallot' hout'
  obtain ⟨hakin, hallots, houts⟩ :=
    Akin.run (e.reset.heeded ops) (akin_reset h hawaited hfresh) hheeds hheeds'
  rw [hfold, hfold'] at hakin
  rw [hallot, hallot'] at hallots
  rw [hout, hout'] at houts
  refine ⟨hakin.census, hallots, hakin.choose?, fun id s hs => houts id s ?_⟩
  simp only [List.mem_cons, List.not_mem_nil, or_false] at hs
  rcases hs with rfl | rfl | rfl | rfl <;> rfl

end Renewal

section Furnishings

/-- What an engine is given when it is built: its temperament and its libraries. -/
def furnishing (e : Engine) : Temperament × Library :=
  (e.temperament, e.library)

theorem furnishing_congr
    {e f : Engine}
    (h : f.background = e.background) :
    f.furnishing = e.furnishing :=
  congrArg (fun b : Background => (b.temperament, b.library)) h

theorem furnishing_process (e : Engine) (frames : Nat) (out : Buffer) :
    (e.process frames out).1.furnishing = e.furnishing := by
  have hadopted : e.adoptAwaited.furnishing = e.furnishing := by
    unfold adoptAwaited
    split
    · rw [adopt_eq]
      split <;> rfl
    · rfl
  have hopened (k : Engine) (n : Nat) : (k.opened n).furnishing = k.furnishing := by
    rw [opened_eq]
    rfl
  have hfinished (k : Engine) (n : Nat) : (k.finish n).furnishing = k.furnishing := rfl
  unfold process
  dsimp only
  split
  · exact hadopted
  · rw [renderBlock_fst, hfinished, furnishing_congr (background_renderVoices _ _ _),
      performed_eq, furnishing_congr (background_performAll _ _), hopened, hadopted]

/-- Only a new temperament changes what an engine was given. -/
theorem furnishing_operate
    (e : Engine)
    {op : Operation}
    (hop : ∀ t, op ≠ .setTemperament t) :
    (e.operate op).furnishing = e.furnishing := by
  cases op with
  | post s =>
      rw [operate_post]
      rfl
  | push event =>
      obtain ⟨_, -, hpush⟩ := exists_operate_push e event
      rw [hpush]
      rfl
  | setSampleRate rate =>
      rw [operate_setSampleRate]
      cases isSampleRate rate <;> rfl
  | setTemperament t => exact absurd rfl (hop t)
  | process frames out => exact furnishing_process e frames out
  | _ => rfl

theorem furnishing_foldl_operate
    {ops : List Operation}
    (hops : ∀ op ∈ ops, ∀ t, op ≠ .setTemperament t)
    (e : Engine) :
    (ops.foldl Engine.operate e).furnishing = e.furnishing := by
  induction ops generalizing e with
  | nil => rfl
  | cons op ops ih =>
      rw [List.foldl_cons, ih fun next hnext => hops next (List.mem_cons_of_mem _ hnext),
        furnishing_operate e (hops op List.mem_cons_self)]

end Furnishings

section Trials

/-- What lets two voices play notes under pressure, their pitches gliding. -/
def chordUnderPressure : List Operation :=
  [.stage { voices := 2, glide := 0.5 }, .push (Event.noteOn 3 1 60.0 1.0 0),
    .push (Event.noteOn 4 1 64.0 0.5 1), .push (Event.channelPressure 0 1 0.25 2),
    .process 4 (Buffer.silent 2 4), .push (Event.noteOff 3 1 6)]

/-- Two voices that have played. -/
def playedPair : Engine :=
  chordUnderPressure.foldl Engine.operate (idle 2 48000.0 (EventQueue.empty 8) {} .plain)

/-- What sets a fresh pair up in the same way. -/
def setUp : List Operation :=
  [.stage { voices := 2, glide := 0.5 }, .process 0 (Buffer.silent 0 0), .setClock 4]

/-- Two voices with the same settings and the same clock that never played. -/
def freshPair : Engine :=
  setUp.foldl Engine.operate (idle 2 48000.0 (EventQueue.empty 8) {} .plain)

/-- A new note, and a block in which it begins. -/
def nextNote : List Operation :=
  [.push (Event.noteOn 9 1 72.0 1.0 6), .process 4 (Buffer.silent 2 4)]

/-- After a reset the next note begins as on the fresh pair. -/
theorem reset_playedPair :
    Reachable playedPair
      ∧ playedPair.awaited? = none
      ∧ IsFreshAs playedPair freshPair
      ∧ freshPair.heeded nextNote = playedPair.reset.heeded nextNote
      ∧ (nextNote.foldl Engine.operate freshPair).census
        = (nextNote.foldl Engine.operate playedPair.reset).census
      ∧ freshPair.allotments nextNote = playedPair.reset.allotments nextNote
      ∧ (freshPair.outputs nextNote).map (fun out => out.stream? 0 .gate)
        = (playedPair.reset.outputs nextNote).map fun out => out.stream? 0 .gate := by
  have hreach : Reachable playedPair := Reachable.operateAll (reachableBy_idlePair _) _
  have hawaited : playedPair.awaited? = none := by
    decide +kernel
  have hquiet : ∀ op ∈ setUp, op.plays = false := by
    decide
  have hunplayed : ReachableBy (fun _ op => op.plays = false) freshPair :=
    (reachableBy_idlePair _).operateAll setUp fun op hop _ => hquiet op hop
  have hfurnishing : freshPair.furnishing = playedPair.furnishing :=
    (furnishing_foldl_operate (by simp [setUp]) _).trans
      (furnishing_foldl_operate (by simp [chordUnderPressure]) _).symm
  obtain ⟨htemperament, hlibrary⟩ := Prod.mk.inj hfurnishing
  have hfresh : IsFreshAs playedPair freshPair :=
    ⟨hunplayed, by decide +kernel, by decide +kernel, htemperament, by decide +kernel,
      by decide +kernel, hlibrary, by decide +kernel, by decide +kernel⟩
  have hheeds : freshPair.HeedsAll nextNote := by
    decide +kernel
  have hheeds' : playedPair.reset.HeedsAll nextNote := by
    decide +kernel
  have hheeded : freshPair.heeded nextNote = playedPair.reset.heeded nextNote :=
    hheeds.heeded_eq.trans hheeds'.heeded_eq.symm
  obtain ⟨_, hsame⟩ := reset_is_fresh hreach hawaited
  obtain ⟨hcensus, hallotted, _, hstreams⟩ := hsame freshPair hfresh nextNote nextNote hheeded
  exact ⟨hreach, hawaited, hfresh, hheeded, hcensus, hallotted,
    hstreams 0 .gate List.mem_cons_self⟩

end Trials

end Engine
end Polyphony
