import Polyphony.Proofs.Engine.Isolation

/-!
# The outline of an engine

Silence mutes some ramps of an engine, gate, velocity, amplitude and pressures,
and leaves the others where they are.  The outline keeps the muted ones and
forgets the others, as well as the bends of the channels, the drift, and what the
queue refuses.

**Results.**
* `Akin.perform`, `Akin.operate`: two engines of one outline still have one after the
  same events and the same operations.
* `Akin.streams`: they send out the same gates, velocities, voice numbers and
  aftertouch.
-/

namespace Polyphony

/-- Whether silence brings the ramp in a role to zero. -/
def Role.isMuted : Role → Bool
  | .gate => true
  | .amp => true
  | .velocity => true
  | .notePressure => true
  | .channelPressure => true
  | _ => false

/-- Whether a stream is made of muted ramps alone. -/
def Stream.isMuted : Stream → Bool
  | .gate => true
  | .velocity => true
  | .voice => true
  | .aftertouch => true
  | _ => false

namespace Controls

section Outlines

/-- The ramps that silence mutes. -/
def outline (c : Controls) : Controls :=
  { resting 0.0 with
    gate := c.gate
    amp := c.amp
    velocity := c.velocity
    notePressure := c.notePressure
    channelPressure := c.channelPressure }

theorem get_outline
    (c : Controls) {role : Role}
    (h : role.isMuted = true) :
    c.outline.get role = c.get role := by
  cases role <;> first | rfl | cases h

/-- The outline is made of the muted ramps. -/
theorem outline_congr
    {c d : Controls}
    (h : ∀ role : Role, role.isMuted = true → c.get role = d.get role) :
    c.outline = d.outline := by
  refine ext_get fun role => ?_
  cases hmuted : role.isMuted with
  | true => rw [get_outline c hmuted, get_outline d hmuted, h role hmuted]
  | false => cases role <;> first | rfl | cases hmuted

theorem outline_outline (c : Controls) :
    c.outline.outline = c.outline := by
  rfl

theorem outline_scheduleMod
    (c : Controls) (slot : Nat) (value : Float32) (offset : Nat) :
    (c.scheduleMod slot value offset).outline = c.outline := by
  rcases slot with _ | _ | _ | slot <;> rfl

end Outlines

end Controls

namespace Voice

section Outlines

/-- A voice with the ramps that silence mutes. -/
def outline (v : Voice) : Voice :=
  v.mapControls Controls.outline

/-- Voices of one tenancy whose muted ramps are the same. -/
theorem outline_congr
    {v w : Voice}
    (htenancy : v.toTenancy = w.toTenancy)
    (h : ∀ role : Role, role.isMuted = true →
      v.toControls.get role = w.toControls.get role) :
    v.outline = w.outline := by
  unfold outline mapControls
  rw [htenancy, Controls.outline_congr h]

/-- An answer does the same to the outline. -/
theorem outline_take (t : Temperament) (v : Voice) (a : Answer) :
    (v.outline.take t a).outline = (v.take t a).outline := by
  rw [Answer.take_eq, Answer.take_eq]
  refine outline_congr rfl fun role hmuted => ?_
  show ((v.toControls.outline.scheduleAll _).get role) = (v.toControls.scheduleAll _).get role
  rw [Controls.get_scheduleAll, Controls.get_scheduleAll, Controls.get_outline _ hmuted]
  rfl

/-- Opening a block only makes the outline older. -/
theorem outline_openVoice (goals : List Float32) (n id : Nat) (v : Voice) :
    (Engine.openVoice goals n id v).outline = (v.grow n).outline := by
  unfold Engine.openVoice
  split <;> rfl

theorem outline_grow (v : Voice) (n : Nat) :
    (v.outline.grow n).outline = (v.grow n).outline := by
  have hbusy : v.outline.isBusy = v.isBusy := rfl
  unfold grow
  rw [hbusy]
  split <;> rfl

end Outlines

end Voice

namespace BlockContext

section Outlines

variable {c d : BlockContext} {v : Voice}

/-- Rendering does the same to the outline, whatever is shared. -/
theorem outline_renderVoice
    (h : 0 < c.frames)
    (hframes : d.frames = c.frames)
    (hsettings : d.settings = c.settings)
    (id : Nat) (v : Voice) :
    (d.renderVoice id v.outline).2.outline = (c.renderVoice id v).2.outline := by
  refine Voice.outline_congr ?_ fun role hmuted => ?_
  · rw [tenancy_renderVoice, tenancy_renderVoice]
    rfl
  · have hget : v.outline.toControls.get role = v.toControls.get role :=
      Controls.get_outline _ hmuted
    rw [get_renderVoice c id v role h, get_renderVoice d id v.outline role (hframes ▸ h),
      hget, hframes, hsettings]

/-- The muted streams of a voice come from its outline and the shared pressure. -/
theorem stream_renderVoice
    {s : Stream}
    (hmuted : s.isMuted = true)
    (hframes : d.frames = c.frames)
    (hsettings : d.settings = c.settings)
    (hpressure : d.shared.pressure = c.shared.pressure)
    (id : Nat) (v : Voice) :
    (d.renderVoice id v.outline).1.get s = (c.renderVoice id v).1.get s := by
  rw [renderVoice_fst, renderVoice_fst]
  cases s with
  | gate =>
      show (v.gate.render d.frames).1 = (v.gate.render c.frames).1
      rw [hframes]
  | velocity =>
      show (v.velocity.render d.frames).1 = (v.velocity.render c.frames).1
      rw [hframes]
  | voice =>
      show Signal.constant d.frames _ = Signal.constant c.frames _
      rw [hframes]
  | aftertouch =>
      show (d.aftertouch v.outline).1 = (c.aftertouch v).1
      unfold aftertouch
      rw [hframes, hsettings, hpressure]
      cases c.settings.protocol <;> rfl
  | pitch => cases hmuted
  | modA => cases hmuted
  | modB => cases hmuted
  | modC => cases hmuted

end Outlines

end BlockContext

/-- A drift that has drawn nothing and never will. -/
def Drift.blank : Drift where
  random := { numbers := fun _ => 0.0 }
  interval := 0

namespace Engine

section Outlines

variable {e f : Engine} {event : Event}

/-- An engine with the ramps that silence mutes and the events that wait, in concert pitch. -/
def outline (e : Engine) : Engine :=
  { e with
    tuningShift := 0.0
    queue := { capacity := 0, waiting := e.queue.waiting }
    drift := .blank
    channelBends := []
    main := e.main.outline
    bank := e.bank.mapAll Voice.outline }

/--
What no event changes, but for the tuning, the drift, what the queue refuses, and the
number of voices.
-/
def scene (e : Engine) : Background :=
  { e.background with
    tuningShift := 0.0
    queue := { capacity := 0, waiting := e.queue.waiting }
    drift := .blank
    capacity := 0 }

/-- Engines that agree in all that an outline keeps have one outline. -/
theorem outline_congr
    (hscene : f.scene = e.scene)
    (htables : f.tables = e.tables)
    (hrotation : f.bank.rotation = e.bank.rotation)
    (hvoices : f.bank.voices.map Voice.outline = e.bank.voices.map Voice.outline)
    (hmain : f.main.outline = e.main.outline) :
    f.outline = e.outline := by
  have hcount : f.bank.count = e.bank.count := congrArg Background.count hscene
  have hbank : f.bank.mapAll Voice.outline = e.bank.mapAll Voice.outline := by
    unfold Bank.mapAll
    rw [hvoices, hrotation, hcount]
  unfold outline
  rw [Engine.mk.injEq]
  exact ⟨congrArg Background.settings hscene, congrArg Tables.pedal htables,
    congrArg Background.clock hscene, rfl, hbank, hmain, rfl, congrArg Tables.held htables,
    congrArg Tables.displaced htables, congrArg Background.queue hscene,
    congrArg Background.mailbox hscene, congrArg Background.staged hscene, rfl,
    congrArg Background.temperament hscene,
    congrArg Background.sampleRate hscene, congrArg Background.library hscene⟩

/-- Doing the same to all voices, or to their outlines. -/
theorem voices_mapAll_outline
    {act : Voice → Voice}
    (hact : ∀ v, (act v.outline).outline = (act v).outline)
    (b : Bank) :
    ((b.mapAll Voice.outline).mapAll act).voices.map Voice.outline
      = (b.mapAll act).voices.map Voice.outline := by
  unfold Bank.mapAll
  dsimp only
  rw [List.map_map, List.map_map, List.map_map]
  exact List.map_congr_left fun v _ => hact v

/-- Doing the same to the numbered voices, or to their outlines. -/
theorem voices_mapIdx_outline
    {act act' : Nat → Voice → Voice}
    (hact : ∀ id v, (act' id v.outline).outline = (act id v).outline)
    (voices : List Voice) :
    ((voices.map Voice.outline).mapIdx act').map Voice.outline
      = (voices.mapIdx act).map Voice.outline := by
  apply List.ext_getElem?
  intro id
  simp only [List.getElem?_map, List.getElem?_mapIdx, Option.map_map]
  congr 1
  funext v
  exact hact id v

theorem voices_outline (e : Engine) :
    e.outline.bank.voices.map Voice.outline = e.bank.voices.map Voice.outline := by
  exact List.map_map

theorem outline_outline (e : Engine) :
    e.outline.outline = e.outline :=
  outline_congr rfl rfl rfl (voices_outline e) rfl

/-- What looks at no ramp, bend, tuning, drift or queue is the same for the outline. -/
theorem read_outline
    {α : Type}
    (read : Engine → α)
    (hbare : ∀ k, read k.bare = read k)
    (hside : ∀ (k : Engine) (tuningShift : Float32) (main : Controls) (drift : Drift),
      read { k with tuningShift, main, drift } = read k)
    (e : Engine) :
    read e.outline = read e := by
  have hbank : (e.bank.mapAll Voice.outline).bare = e.bank.bare := by
    unfold Bank.bare Bank.mapAll
    rw [List.map_map]
    rfl
  have hsame : e.outline.bare
      = { e.bare with tuningShift := 0.0, main := e.main.outline, drift := .blank } := by
    unfold bare outline
    rw [hbank]
  rw [← hbare e.outline, hsame, hside, hbare]

end Outlines

section Steps

variable (e : Engine) (event : Event)

theorem answer_outline :
    e.outline.answer event = e.answer event := by
  funext id tn
  exact read_outline (fun k => k.answer event id tn) (fun k => answer_bare k event id tn)
    (fun _ _ _ _ => rfl) e

theorem choose?_outline :
    e.outline.choose? event = e.choose? event :=
  read_outline (fun k => k.choose? event) (fun k => choose?_bare k event) (fun _ _ _ _ => rfl) e

theorem admitted_outline (next : Settings) :
    e.outline.admitted next = e.admitted next :=
  read_outline (fun k => k.admitted next) (fun k => admitted_bare k next) (fun _ _ _ _ => rfl) e

theorem outline_distributeGlides :
    e.outline.distributeGlides.outline = e.distributeGlides.outline :=
  outline_congr rfl rfl rfl (voices_mapAll_outline (fun _ => rfl) e.bank) rfl

theorem outline_silence :
    e.outline.silence.outline = e.silence.outline :=
  outline_congr rfl rfl rfl (voices_mapAll_outline (fun _ => rfl) e.bank) rfl

theorem outline_reset :
    e.outline.reset.outline = e.reset.outline :=
  outline_congr rfl rfl rfl (voices_mapAll_outline (fun _ => rfl) e.bank) rfl

theorem outline_rerated (rate : Float32) :
    (e.outline.rerated rate).outline = (e.rerated rate).outline :=
  outline_congr rfl rfl rfl (voices_mapAll_outline (fun _ => rfl) e.bank) rfl

theorem outline_resettled (next : Settings) :
    (e.outline.resettled next).outline = (e.resettled next).outline := by
  have hcapacity : e.outline.bank.capacity = e.bank.capacity := List.length_map _
  have hscene : (e.outline.resettled next).scene = (e.resettled next).scene := by
    unfold scene background resettled Bank.withCount
    rw [admitted_outline, hcapacity]
    rfl
  exact outline_congr hscene rfl rfl (voices_outline e) rfl

theorem outline_finish (n : Nat) :
    (e.outline.finish n).outline = (e.finish n).outline :=
  outline_congr rfl rfl rfl (voices_mapAll_outline (fun _ => rfl) e.bank) rfl

theorem outline_opened (n : Nat) :
    (e.outline.opened n).outline = (e.opened n).outline := by
  have hvoices :
      ((e.bank.voices.map Voice.outline).mapIdx fun id v =>
          if id < e.bank.count then openVoice (e.outline.openingGoals n) n id v else v).map
            Voice.outline
        = (e.bank.voices.mapIdx fun id v =>
          if id < e.bank.count then openVoice (e.openingGoals n) n id v else v).map
            Voice.outline := by
    refine voices_mapIdx_outline (fun id v => ?_) _
    split
    · rw [Voice.outline_openVoice, Voice.outline_openVoice, Voice.outline_grow]
    · rfl
  rw [opened_eq, opened_eq]
  exact outline_congr rfl rfl rfl hvoices rfl

theorem outline_mainAfter :
    (e.outline.mainAfter event).outline = (e.mainAfter event).outline := by
  have hbind (c : Controls) : (bindAxis e.settings event c).outline = c.outline := by
    rw [bindAxis_eq]
    cases axis? e.settings event.number with
    | none => rfl
    | some slot => exact Controls.outline_scheduleMod _ _ _ _
  unfold mainAfter
  show (if e.settings.protocol = .expressive ∧ event.channel = mainChannel then _ else _
    : Controls).outline = _
  split
  · split
    · split
      · rfl
      · exact (hbind e.main.outline).trans (hbind e.main).symm
    · rfl
    · rfl
    · rfl
  · rfl

theorem outline_perform :
    (e.outline.perform event).outline = (e.perform event).outline := by
  cases hsilent : e.silences event with
  | true =>
      have hsilent' : e.outline.silences event = true := hsilent
      rw [perform_of_silences hsilent, perform_of_silences hsilent']
      exact outline_silence e
  | false =>
      have hsilent' : e.outline.silences event = false := hsilent
      have hscene (k : Engine) : (k.perform event).scene = k.scene := by
        unfold scene
        rw [background_perform, queue_perform]
      have hheld := read_outline (fun k => k.heldAfter event) (fun k => heldAfter_bare k event)
        (fun _ _ _ _ => rfl) e
      have hdisplaced := read_outline (fun k => k.displacedAfter event)
        (fun k => displacedAfter_bare k event) (fun _ _ _ _ => rfl) e
      have hrotation := read_outline (fun k => k.rotationAfter event)
        (fun k => rotationAfter_bare k event) (fun _ _ _ _ => rfl) e
      refine outline_congr ?_ ?_ ?_ ?_ ?_
      · rw [hscene, hscene]
        rfl
      · rw [tables_perform hsilent, tables_perform hsilent', hheld, hdisplaced]
        rfl
      · rw [rotation_perform hsilent, rotation_perform hsilent', hrotation]
      · rw [voices_perform hsilent, voices_perform hsilent', answer_outline]
        refine voices_mapIdx_outline (fun id v => ?_) e.bank.voices
        show Voice.outline (if id < e.bank.count then _ else _)
          = Voice.outline (if id < e.bank.count then _ else _)
        split
        · exact Voice.outline_take _ v _
        · rfl
      · have hmain {k : Engine} (hk : k.silences event = false) :
            (k.perform event).main = k.mainAfter event :=
          congrArg Buses.main (buses_perform hk)
        rw [hmain hsilent, hmain hsilent']
        exact outline_mainAfter e event

/-- The shared pressure is the one of the outline. -/
theorem pressure_outline (n : Nat) :
    (e.outline.sharedSignals n).1.pressure = (e.sharedSignals n).1.pressure := by
  have hsettings : e.outline.settings = e.settings := rfl
  unfold sharedSignals
  rw [hsettings]
  cases e.settings.protocol <;> rfl

theorem outline_main_sharedSignals (n : Nat) :
    (e.outline.sharedSignals n).2.main.outline = (e.sharedSignals n).2.main.outline := by
  have hsettings : e.outline.settings = e.settings := rfl
  unfold sharedSignals
  rw [hsettings]
  cases e.settings.protocol <;> rfl

theorem outline_renderVoices
    {n : Nat} (places : Nat)
    (h : 0 < n) :
    (e.outline.renderVoices n places).2.outline = (e.renderVoices n places).2.outline := by
  have hscene (k : Engine) : (k.renderVoices n places).2.scene = k.scene := by
    have hback := background_renderVoices k n places
    have hqueue : (k.renderVoices n places).2.queue = k.queue := congrArg Background.queue hback
    unfold scene
    rw [hback, hqueue]
  have htables (k : Engine) : (k.renderVoices n places).2.tables = k.tables := by
    rw [renderVoices_snd]
    rfl
  have hrotation (k : Engine) : (k.renderVoices n places).2.bank.rotation = k.bank.rotation := by
    rw [renderVoices_snd]
  have hmain (k : Engine) : (k.renderVoices n places).2.main = (k.sharedSignals n).2.main := by
    rw [renderVoices_snd]
  refine outline_congr ?_ ?_ ?_ ?_ ?_
  · rw [hscene, hscene]
    rfl
  · rw [htables, htables]
    rfl
  · rw [hrotation, hrotation]
    rfl
  · rw [renderVoices_snd, renderVoices_snd]
    refine voices_mapIdx_outline (fun id v => ?_) e.bank.voices
    show Voice.outline (if id < min e.bank.count places then _ else _)
      = Voice.outline (if id < min e.bank.count places then _ else _)
    split
    · have hsame := BlockContext.outline_renderVoice (c := e.blockContext n)
        (d := e.outline.blockContext n) h rfl rfl id v
      exact hsame
    · rfl
  · rw [hmain, hmain]
    exact outline_main_sharedSignals e n

/-- The muted streams of a block are those of the outline. -/
theorem signals_outline
    (n places id : Nat) {s : Stream}
    (hmuted : s.isMuted = true) :
    ((e.outline.renderVoices n places).1[id]?).map (fun own => own.get s)
      = ((e.renderVoices n places).1[id]?).map fun own => own.get s := by
  rw [getElem?_renderVoices_fst, getElem?_renderVoices_fst]
  show Option.map _ (if id < min e.bank.count places then _ else _)
    = Option.map _ (if id < min e.bank.count places then _ else _)
  split
  · show Option.map _ (Option.map _ (e.bank.voices.map Voice.outline)[id]?) = _
    rw [List.getElem?_map]
    cases e.bank.voices[id]? with
    | none => rfl
    | some v =>
        exact congrArg some (BlockContext.stream_renderVoice (c := e.blockContext n)
          (d := e.outline.blockContext n) hmuted rfl rfl (pressure_outline e n) id v)
  · rfl

end Steps

/-- Two engines with one outline. -/
def Akin (e f : Engine) : Prop :=
  f.outline = e.outline

section Kinship

variable {e f : Engine}

/-- What an outline has in the same way is the same. -/
theorem Akin.same
    {α : Type}
    (h : Akin e f)
    (read : Engine → α)
    (hread : ∀ k, read k.outline = read k) :
    read f = read e := by
  rw [← hread f, h, hread]

/-- What does the same to outlines keeps kinship. -/
theorem Akin.step
    (h : Akin e f)
    (act : Engine → Engine)
    (hact : ∀ k, (act k.outline).outline = (act k).outline) :
    Akin (act e) (act f) :=
  h.same (fun k => (act k).outline) hact

theorem Akin.settings
    (h : Akin e f) :
    f.settings = e.settings :=
  h.same Engine.settings fun _ => rfl

theorem Akin.census
    (h : Akin e f) :
    f.census = e.census := by
  refine h.same Engine.census fun k => ?_
  have htenancies : (k.bank.voices.map Voice.outline).map Voice.toTenancy
      = k.bank.voices.map Voice.toTenancy := by
    rw [List.map_map]
    rfl
  refine census_congr ?_ htenancies
  unfold roster
  show Roster.mk _ _ _ _ _ ((k.bank.voices.map Voice.outline).map _) = _
  rw [List.map_map]
  rfl

theorem Akin.choose?
    (h : Akin e f)
    (event : Event) :
    Engine.choose? f event = Engine.choose? e event :=
  h.same (fun k => k.choose? event) fun k => choose?_outline k event

theorem Akin.perform
    (h : Akin e f)
    (event : Event) :
    Akin (Engine.perform e event) (Engine.perform f event) :=
  h.step (fun k => k.perform event) fun k => outline_perform k event

theorem Akin.performAll
    (h : Akin e f)
    (events : List Event) :
    Akin (events.foldl Engine.perform e) (events.foldl Engine.perform f) := by
  induction events generalizing e f with
  | nil => exact h
  | cons event events ih => exact ih (h.perform event)

theorem Akin.opened
    (h : Akin e f)
    (n : Nat) :
    Akin (Engine.opened e n) (Engine.opened f n) :=
  h.step (fun k => k.opened n) fun k => outline_opened k n

theorem Akin.upcoming
    (h : Akin e f)
    (n : Nat) :
    Engine.upcoming f n = Engine.upcoming e n := by
  refine h.same (fun k => k.upcoming n) fun k => ?_
  rw [upcoming_eq, upcoming_eq]
  rfl

theorem Akin.performed
    (h : Akin e f)
    (n : Nat) :
    Akin (Engine.performed e n) (Engine.performed f n) := by
  have hperformed (k : Engine) :
      k.performed n = (k.upcoming n).foldl Engine.perform (k.opened n) := by
    rfl
  rw [hperformed, hperformed, h.upcoming]
  exact (h.opened n).performAll _

theorem Akin.distributeGlides
    (h : Akin e f) :
    Akin (Engine.distributeGlides e) (Engine.distributeGlides f) :=
  h.step Engine.distributeGlides outline_distributeGlides

theorem Akin.silence
    (h : Akin e f) :
    Akin (Engine.silence e) (Engine.silence f) :=
  h.step Engine.silence outline_silence

/-- The same new settings keep kinship. -/
theorem Akin.adopt
    (h : Akin e f)
    (next : Settings) :
    Akin (Engine.adopt e next) (Engine.adopt f next) := by
  have hadmitted := h.same (fun k => k.admitted next) fun k => admitted_outline k next
  have hresettled : Akin (e.resettled next) (f.resettled next) :=
    h.step (fun k => k.resettled next) fun k => outline_resettled k next
  rw [adopt_eq, adopt_eq, h.settings, hadmitted]
  split
  · exact hresettled.distributeGlides.silence
  · exact hresettled.distributeGlides

theorem Akin.adoptAwaited
    (h : Akin e f) :
    Akin (Engine.adoptAwaited e) (Engine.adoptAwaited f) := by
  have hawaited := h.same Engine.awaited? fun _ => rfl
  have htaken : Akin e.taken f.taken := h.step Engine.taken fun k => outline_outline k.taken
  unfold Engine.adoptAwaited
  rw [hawaited]
  split
  · exact htaken.adopt _
  · exact h

/-- A block keeps kinship. -/
theorem Akin.process
    (h : Akin e f)
    (frames : Nat) (out : Buffer) :
    Akin (Engine.process e frames out).1 (Engine.process f frames out).1 := by
  have hadopted := h.adoptAwaited
  unfold Engine.process
  dsimp only
  split
  case isTrue => exact hadopted
  case isFalse hzero =>
    have hrendered := (hadopted.performed (blockLength frames out)).step
      (fun k => (k.renderVoices (blockLength frames out) out.voices).2)
      fun k => outline_renderVoices k out.voices (Nat.pos_of_ne_zero hzero)
    rw [renderBlock_fst, renderBlock_fst]
    exact hrendered.step (fun k => k.finish _) fun k => outline_finish k _

/-- Akin engines send out the same muted streams. -/
theorem Akin.streams
    (h : Akin e f)
    (frames : Nat) (out : Buffer) (id : Nat) {s : Stream}
    (hmuted : s.isMuted = true) :
    (Engine.process f frames out).2.stream? id s
      = (Engine.process e frames out).2.stream? id s := by
  have hperformed := h.adoptAwaited.performed (blockLength frames out)
  have hsignals := hperformed.same
    (fun k => ((k.renderVoices (blockLength frames out) out.voices).1[id]?).map
      fun own => own.get s)
    fun k => signals_outline k _ _ _ hmuted
  have hsize (k : Engine) :
      ∀ own ∈ (k.renderVoices (blockLength frames out) out.voices).1,
        ∀ s, (own.get s).size ≤ out.frames :=
    fun own hown s => Nat.le_trans (size_signals_le hown s) (Nat.min_le_right _ _)
  unfold Engine.process
  dsimp only
  split
  · rfl
  · rw [renderBlock_snd, renderBlock_snd]
    exact Buffer.stream?_putVoices_congr hsignals (hsize _) (hsize _)

/-- The same operation keeps kinship, if a push is accepted by both. -/
theorem Akin.operate
    (h : Akin e f)
    {op : Operation}
    (hheeds : e.heeds op = true)
    (hheeds' : f.heeds op = true) :
    Akin (Engine.operate e op) (Engine.operate f op) := by
  cases op with
  | attachMailbox => exact h.step attachMailbox fun k => outline_outline k.attachMailbox
  | post s =>
      have hmailbox := h.same Engine.mailbox fun _ => rfl
      have hposted (box : Option Mailbox) :
          Akin { e with mailbox := box } { f with mailbox := box } :=
        h.step (fun k => { k with mailbox := box }) fun k =>
          outline_outline { k with mailbox := box }
      rw [operate_post, operate_post, hmailbox]
      exact hposted _
  | stage s => exact h.step (fun k => k.stage s) fun k => outline_outline (k.stage s)
  | push event =>
      obtain ⟨q, hq, he⟩ := operate_push hheeds
      obtain ⟨r, hr, hf⟩ := operate_push hheeds'
      have hwaiting : f.queue.waiting = e.queue.waiting :=
        h.same (fun k => k.queue.waiting) fun _ => rfl
      have hqueue : r.waiting = q.waiting := by
        rw [hq, hr, hwaiting]
      rw [he, hf]
      have hadded := h.step (fun k => { k with queue := { capacity := 0, waiting := q.waiting } })
        fun k => outline_outline { k with queue := { capacity := 0, waiting := q.waiting } }
      unfold Akin outline at hadded ⊢
      rw [hqueue]
      exact hadded
  | setSampleRate rate =>
      have hrerated : Akin (e.rerated rate) (f.rerated rate) :=
        h.step (fun k => k.rerated rate) fun k => outline_rerated k rate
      rw [operate_setSampleRate, operate_setSampleRate]
      cases isSampleRate rate with
      | true => exact hrerated.distributeGlides
      | false => exact h
  | setTemperament t =>
      exact h.step (fun k => k.withTemperament t)
        fun k => outline_outline (k.withTemperament t)
  | setClock time =>
      exact h.step (fun k => k.withClock time) fun k => outline_outline (k.withClock time)
  | silence => exact h.silence
  | reset => exact h.step reset outline_reset
  | process frames out => exact h.process frames out

end Kinship

end Engine
end Polyphony
