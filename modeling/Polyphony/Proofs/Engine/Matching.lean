import Polyphony.Proofs.Engine.Rendering
import Polyphony.Proofs.Engine.Tables

/-!
# Engines that match

Two engines match if one can be told from the other only by the times of its
notes, and if every ramp of a voice that plays is what a rule makes of the same
ramp of the other engine.  The rule may leave ramps as they are, or take the
next frame with them.

**Gentle events.**  An event is gentle if it does not silence, steals no voice,
and finds a place for every change that it schedules.

**Results.**
* `Matches.perform`: a gentle event that is performed on both engines, on the
  later one at an earlier time, leaves them matching.
* `Matches.performAll`: so do several events.
-/

namespace Polyphony

namespace Answer

section Sooner

/-- An answer as it looks some samples later. -/
def sooner (a : Answer) (k : Nat) : Answer :=
  match a with
  | .rest => .rest
  | .start event => .start (event.sooner k)
  | .steal event retrigger => .steal (event.sooner k) retrigger
  | .release event => .release (event.sooner k)
  | .keep => .keep
  | .move event => .move (event.sooner k)
  | .adjust role change => .adjust role (change.earlier k)

theorem isSteal_sooner (a : Answer) (k : Nat) :
    (a.sooner k).isSteal = a.isSteal := by
  cases a <;> rfl

theorem sooner_ite (p : Prop) [Decidable p] (a b : Answer) (k : Nat) :
    (if p then a else b).sooner k = if p then a.sooner k else b.sooner k := by
  split
  · rfl
  · rfl

theorem sooner_moveMod (event : Event) (slot : Option Nat) (k : Nat) :
    (moveMod event slot).sooner k = moveMod (event.sooner k) slot := by
  unfold moveMod
  split
  · rfl
  · rfl

theorem essence_tenancy_sooner
    (a : Answer) (k : Nat) {tn later : Tenancy}
    (h : later.essence = tn.essence) :
    ((a.sooner k).tenancy later).essence = (a.tenancy tn).essence := by
  obtain ⟨hphase, howner, hchannel, hnote, horigin, hevent⟩ := Tenancy.of_essence_eq h
  cases a with
  | rest => exact h
  | start event => rfl
  | steal event retrigger =>
      simp only [sooner, tenancy, Tenancy.essence, horigin]
      rfl
  | release event =>
      simp only [sooner, tenancy, Tenancy.essence, hchannel, hnote, horigin]
      rfl
  | keep => simp only [sooner, tenancy, Tenancy.essence, howner, hchannel, hnote, horigin, hevent]
  | move event => exact h
  | adjust role change => exact h

theorem changes_sooner
    {a : Answer} {k : Nat} {tn later : Tenancy}
    (hsteal : a.isSteal = false)
    (horigin : later.originY = tn.originY)
    (t : Temperament) (role : Role) :
    (a.sooner k).changes t later role = (a.changes t tn role).map (Change.earlier k) := by
  cases a with
  | rest => rfl
  | start event => cases role <;> rfl
  | steal event retrigger => cases hsteal
  | release event => cases role <;> rfl
  | keep => rfl
  | move event =>
      simp only [sooner, changes, horigin]
      cases role <;> rfl
  | adjust target change =>
      by_cases hrole : role = target <;> simp [sooner, changes, hrole]

end Sooner

end Answer

/-- What is made of the ramp in a role. -/
abbrev Rule := Role → Ramp → Ramp

namespace Rule

/-- The rule that leaves ramps as they are. -/
def stay : Rule :=
  fun _ r => r

/-- The rule that takes the next frame with the ramps that are rendered. -/
def frame (s : Settings) : Rule :=
  fun role r => if s.renders role then r.next else r.skip

/-- A rule by which time passes: changes may be scheduled before or after it. -/
structure Passes (rule : Rule) (k : Nat) : Prop where
  schedule : ∀ role r changes,
    Ramp.Ordered r.pending →
    Ramp.HavePlaces r.pending changes →
    (∀ c ∈ changes, k ≤ c.offset) →
    rule role (r.scheduleAll changes)
      = (rule role r).scheduleAll (changes.map (Change.earlier k))
  places : ∀ role r changes,
    Ramp.Ordered r.pending →
    Ramp.HavePlaces r.pending changes →
    (∀ c ∈ changes, k ≤ c.offset) →
    Ramp.HavePlaces (rule role r).pending (changes.map (Change.earlier k))

theorem passes_stay : stay.Passes 0 where
  schedule := by
    intro role r changes _ _ _
    have hsame : changes.map (Change.earlier 0) = changes := List.map_id changes
    rw [hsame]
    rfl
  places := by
    intro role r changes _ hplaces _
    have hsame : changes.map (Change.earlier 0) = changes := List.map_id changes
    rw [hsame]
    exact hplaces

theorem passes_frame (s : Settings) : (frame s).Passes 1 where
  schedule := by
    intro role r changes hord hplaces hchanges
    unfold frame
    split
    · exact Ramp.next_scheduleAll hord hplaces hchanges
    · exact Ramp.skip_scheduleAll hord hplaces hchanges
  places := by
    intro role r changes hord hplaces hchanges
    have hpending : (frame s role r).pending = Ramp.passed r.pending := by
      unfold frame
      split <;> rfl
    rw [hpending]
    exact hplaces.passed hord hchanges

end Rule

namespace Controls

/-- Controls with a rule applied to every ramp. -/
def apply (rule : Rule) (c : Controls) : Controls :=
  ofRoles fun role => rule role (c.get role)

@[simp] theorem get_apply (rule : Rule) (c : Controls) (role : Role) :
    (c.apply rule).get role = rule role (c.get role) := by
  exact get_ofRoles _ role

/-- All pending changes are in order. -/
def Ordered (c : Controls) : Prop :=
  ∀ role, Ramp.Ordered (c.get role).pending

end Controls

namespace Engine

/-- Two engines that differ only by times, and by a rule for ramps. -/
structure Matches (rule : Rule) (e f : Engine) : Prop where
  settings : f.settings = e.settings
  tuningShift : f.tuningShift = e.tuningShift
  temperament : f.temperament = e.temperament
  pedal : f.pedal = e.pedal
  held : f.held.timeless = e.held.timeless
  displaced : f.displaced.timeless = e.displaced.timeless
  count : f.bank.count = e.bank.count
  rotation : f.bank.rotation = e.bank.rotation
  length : f.bank.voices.length = e.bank.voices.length
  voices : ∀ id v w, e.bank.voices[id]? = some v → f.bank.voices[id]? = some w →
    w.toTenancy.essence = v.toTenancy.essence
      ∧ (id < e.bank.count → w.toControls = v.toControls.apply rule)

/-- Pending changes of the voices that play are in order, and there are such voices. -/
structure InOrder (e : Engine) : Prop where
  fits : e.bank.count ≤ e.bank.voices.length
  ordered : ∀ v ∈ e.bank.active, v.toControls.Ordered

/-- An event that does not silence, steals no voice and finds places for its changes. -/
def Gentle (e : Engine) (event : Event) : Prop :=
  e.silences event = false ∧
    ∀ p ∈ e.bank.active.zipIdx,
      (e.answer event p.2 p.1.toTenancy).isSteal = false ∧
        ∀ role ∈ Role.all,
          Ramp.HavePlaces (p.1.toControls.get role).pending
            ((e.answer event p.2 p.1.toTenancy).changes e.temperament p.1.toTenancy role)

/-- Several events, each gentle when its turn comes. -/
def GentleAll : Engine → List Event → Prop
  | _, [] => True
  | e, event :: events => e.Gentle event ∧ GentleAll (e.perform event) events

instance (e : Engine) (event : Event) : Decidable (e.Gentle event) :=
  inferInstanceAs (Decidable (_ ∧ _))

instance decidableGentleAll : (e : Engine) → (events : List Event) →
    Decidable (e.GentleAll events)
  | _, [] => isTrue trivial
  | e, event :: events =>
      have := decidableGentleAll (e.perform event) events
      inferInstanceAs (Decidable (_ ∧ _))

section Gentleness

variable {e : Engine} {event : Event}

theorem mem_active_zipIdx
    {id : Nat} {v : Voice}
    (hid : id < e.bank.count)
    (hv : e.bank.voices[id]? = some v) :
    (v, id) ∈ e.bank.active.zipIdx := by
  rw [List.mem_zipIdx_iff_getElem?]
  unfold Bank.active
  rw [List.getElem?_take, if_pos hid]
  exact hv

theorem Gentle.isSteal
    (h : e.Gentle event)
    {id : Nat} {v : Voice}
    (hid : id < e.bank.count)
    (hv : e.bank.voices[id]? = some v) :
    (e.answer event id v.toTenancy).isSteal = false :=
  (h.2 _ (mem_active_zipIdx hid hv)).1

theorem Gentle.places
    (h : e.Gentle event)
    {id : Nat} {v : Voice}
    (hid : id < e.bank.count)
    (hv : e.bank.voices[id]? = some v)
    (role : Role) :
    Ramp.HavePlaces (v.toControls.get role).pending
      ((e.answer event id v.toTenancy).changes e.temperament v.toTenancy role) :=
  (h.2 _ (mem_active_zipIdx hid hv)).2 role (Role.mem_all role)

/-- A gentle note that gets a voice gets a free one. -/
theorem Gentle.choose?
    (h : e.Gentle event)
    (hfits : e.bank.count ≤ e.bank.voices.length)
    (hkind : event.kind = .noteOn)
    (hunison : e.settings.unison = false)
    (hslot : e.held.freeSlot?.isNone = false)
    (id : Nat) :
    e.choose? event ≠ some (.stolen id) := by
  intro hchoice
  have hid : id < e.bank.count := Bank.id_lt_of_choose? hchoice
  have hv : e.bank.voices[id]? = some e.bank.voices[id] :=
    List.getElem?_eq_getElem (by omega)
  have hsteal := h.isSteal hid hv
  simp [answer, hkind, noteOnAnswer, hslot, hunison, hchoice, Answer.isSteal] at hsteal

/-- Gentle events schedule everything at their own time. -/
theorem Gentle.offset_of_mem
    (h : e.Gentle event)
    {id : Nat} {v : Voice}
    (hid : id < e.bank.count)
    (hv : e.bank.voices[id]? = some v)
    {role : Role} {c : Change}
    (hc : c ∈ (e.answer event id v.toTenancy).changes e.temperament v.toTenancy role) :
    c.offset = event.time :=
  Answer.offset_of_mem_changes (e.proper_answer event id _).isAt (h.isSteal hid hv) hc

theorem InOrder.perform
    (h : e.InOrder)
    (hgentle : e.Gentle event) :
    (Engine.perform e event).InOrder := by
  have hback := background_perform e event
  have hcount : (Engine.perform e event).bank.count = e.bank.count :=
    congrArg Background.count hback
  have hlength : (Engine.perform e event).bank.voices.length = e.bank.voices.length :=
    congrArg Background.capacity hback
  constructor
  · rw [hcount, hlength]
    exact h.fits
  · intro v hv role
    rw [active_perform hgentle.1] at hv
    obtain ⟨id, hid, rfl⟩ := List.mem_mapIdx.1 hv
    rw [Answer.take_eq, Controls.get_scheduleAll]
    exact (h.ordered _ (List.getElem_mem hid) role).insertAll _

end Gentleness

section Reading

variable {rule : Rule} {e f : Engine} {event : Event}

theorem Matches.exists_voice
    (h : Matches rule e f)
    {id : Nat} {v : Voice}
    (hv : e.bank.voices[id]? = some v) :
    ∃ w, f.bank.voices[id]? = some w := by
  obtain ⟨hlt, _⟩ := List.getElem?_eq_some_iff.1 hv
  rw [← h.length] at hlt
  exact ⟨_, List.getElem?_eq_getElem hlt⟩

theorem Matches.exists_origin
    (h : Matches rule e f)
    {id : Nat} {w : Voice}
    (hw : f.bank.voices[id]? = some w) :
    ∃ v, e.bank.voices[id]? = some v := by
  obtain ⟨hlt, _⟩ := List.getElem?_eq_some_iff.1 hw
  rw [h.length] at hlt
  exact ⟨_, List.getElem?_eq_getElem hlt⟩

theorem Matches.voice_eq_none
    (h : Matches rule e f)
    {id : Nat}
    (hv : e.bank.voices[id]? = none) :
    f.bank.voices[id]? = none := by
  rw [List.getElem?_eq_none_iff] at hv ⊢
  rw [h.length]
  exact hv

/-- The voices that play do so with the ramps that the rule makes. -/
theorem Matches.mem_active
    (h : Matches rule e f)
    {w : Voice}
    (hw : w ∈ f.bank.active) :
    ∃ v ∈ e.bank.active, w.toControls = v.toControls.apply rule := by
  obtain ⟨id, hid, hget⟩ := Bank.mem_active_iff.1 hw
  rw [h.count] at hid
  obtain ⟨v, hv⟩ := h.exists_origin hget
  exact ⟨v, Bank.mem_active_iff.2 ⟨id, hid, hv⟩, (h.voices id v w hv hget).2 hid⟩

theorem Matches.essence_voice?
    (h : Matches rule e f)
    (id : Nat) :
    (f.bank.voice? id).map (fun v => v.toTenancy.essence)
      = (e.bank.voice? id).map fun v => v.toTenancy.essence := by
  show f.bank.voices[id]?.map _ = e.bank.voices[id]?.map _
  cases hv : e.bank.voices[id]? with
  | none => rw [h.voice_eq_none hv]
  | some v =>
      obtain ⟨w, hw⟩ := h.exists_voice hv
      rw [hw]
      exact congrArg some (h.voices id v w hv hw).1

/-- What is seen of a voice through its essence is seen of both voices. -/
theorem Matches.any_voice?
    (h : Matches rule e f)
    (id : Nat) (p : Tenancy → Bool)
    (hp : ∀ tn, p tn.essence = p tn) :
    (f.bank.voice? id).any (fun v => p v.toTenancy)
      = (e.bank.voice? id).any fun v => p v.toTenancy := by
  have hany (o : Option Voice) :
      o.any (fun v => p v.toTenancy) = (o.map fun v => v.toTenancy.essence).any p := by
    cases o with
    | none => rfl
    | some v => exact (hp v.toTenancy).symm
  rw [hany, hany, h.essence_voice?]

theorem Matches.isFree
    (h : Matches rule e f)
    (id : Nat) :
    f.bank.isFree id = e.bank.isFree id :=
  h.any_voice? id (fun tn => tn.phase == .off) fun _ => rfl

theorem Matches.isSounding
    (h : Matches rule e f)
    (source : UInt32) :
    f.isSounding source = e.isSounding source :=
  h.any_voice? 0 (fun tn => tn.owner == some source) fun _ => rfl

theorem Matches.soundingEvent?
    (h : Matches rule e f) :
    f.soundingEvent?.map Event.timeless = e.soundingEvent?.map Event.timeless := by
  have hsounding (g : Engine) :
      g.soundingEvent?.map Event.timeless
        = (((g.bank.voice? 0).map fun v => v.toTenancy.essence).filter
            fun tn => tn.phase == .held).map Tenancy.event := by
    unfold Engine.soundingEvent?
    cases g.bank.voice? 0 with
    | none => rfl
    | some v =>
        simp only [Option.map_some, Option.filter_some]
        show Option.map _ (Option.map _ (if v.phase == .held then _ else _))
          = Option.map _ (if v.phase == .held then _ else _)
        split
        · rfl
        · rfl
  rw [hsounding, hsounding, h.essence_voice?]

theorem Matches.freeSlot?
    (h : Matches rule e f) :
    f.held.freeSlot? = e.held.freeSlot? := by
  rw [← HeldNotes.freeSlot?_timeless, h.held, HeldNotes.freeSlot?_timeless]

theorem Matches.free?
    (h : Matches rule e f)
    (rotate : Bool) :
    f.bank.free? rotate = e.bank.free? rotate := by
  have hfree : f.bank.isFree = e.bank.isFree := funext h.isFree
  unfold Bank.free? Bank.searchOrder
  rw [hfree, h.count, h.rotation]

/-- A gentle note gets the same voice from both engines. -/
theorem Matches.choose?
    (h : Matches rule e f)
    (hfits : e.bank.count ≤ e.bank.voices.length)
    (hgentle : e.Gentle event)
    (hkind : event.kind = .noteOn)
    (hunison : e.settings.unison = false)
    (hslot : e.held.freeSlot?.isNone = false)
    (k : Nat) :
    f.choose? (event.sooner k) = e.choose? event := by
  have hstolen := hgentle.choose? hfits hkind hunison hslot
  unfold Engine.choose? at hstolen ⊢
  unfold Bank.choose? at hstolen ⊢
  rw [h.count, h.settings, h.free?]
  by_cases hzero : e.bank.count = 0
  · rw [if_pos hzero, if_pos hzero]
  · rw [if_neg hzero, if_neg hzero]
    cases hfree : e.bank.free? e.settings.rotate with
    | some id => rfl
    | none =>
        -- without a free voice one would be stolen
        simp [hzero, hfree] at hstolen

theorem Matches.obeys
    (h : Matches rule e f)
    (number : UInt8) (k : Nat) :
    f.obeys number (event.sooner k) = e.obeys number event := by
  unfold Engine.obeys
  rw [h.settings]
  rfl

theorem Matches.endAnswer
    (h : Matches rule e f)
    (k : Nat) :
    f.endAnswer (event.sooner k) = (e.endAnswer event).sooner k := by
  unfold Engine.endAnswer
  rw [h.pedal]
  cases e.pedal <;> rfl

end Reading

section Answering

variable {rule : Rule} {e f : Engine} {event : Event}

/-- Both engines ask the same of a voice, each at its own time. -/
theorem Matches.answer
    (h : Matches rule e f)
    (hfits : e.bank.count ≤ e.bank.voices.length)
    (hgentle : e.Gentle event)
    {id : Nat} {v w : Voice}
    (hid : id < e.bank.count)
    (hv : e.bank.voices[id]? = some v)
    (hw : f.bank.voices[id]? = some w)
    (k : Nat) :
    f.answer (event.sooner k) id w.toTenancy = (e.answer event id v.toTenancy).sooner k := by
  have hsteal := hgentle.isSteal hid hv
  obtain ⟨hessence, _⟩ := h.voices id v w hv hw
  obtain ⟨hphase, howner, hchannel, hnote, horigin, hevent⟩ := Tenancy.of_essence_eq hessence
  have hheldBy (source : UInt32) :
      w.toTenancy.heldBy source = v.toTenancy.heldBy source := by
    unfold Tenancy.heldBy
    rw [hphase, howner]
  cases hkind : event.kind with
  | noteOn =>
      have hkind' : (event.sooner k).kind = .noteOn := hkind
      simp only [Engine.answer, hkind, hkind', noteOnAnswer, h.freeSlot?, h.settings]
      cases hslot : e.held.freeSlot?.isNone with
      | true => rfl
      | false =>
          cases hunison : e.settings.unison with
          | true => rfl
          | false =>
              rw [h.choose? hfits hgentle hkind hunison hslot]
              cases hchoice : e.choose? event with
              | none => rfl
              | some choice =>
                  cases choice with
                  | free chosen =>
                      dsimp only
                      simp only [Bool.false_eq_true, if_false, Answer.sooner_ite]
                      rfl
                  | stolen chosen =>
                      exact absurd hchoice (hgentle.choose? hfits hkind hunison hslot chosen)
  | noteOff =>
      have hkind' : (event.sooner k).kind = .noteOff := hkind
      simp only [Engine.answer, hkind, noteOffAnswer] at hsteal
      simp only [Engine.answer, hkind, hkind', noteOffAnswer, h.settings, h.endAnswer]
      cases hunison : e.settings.unison with
      | false =>
          simp only [Bool.false_eq_true, if_false, Answer.sooner_ite, ← hheldBy]
          rfl
      | true =>
          have hsounding : f.isSounding (event.sooner k).source = e.isSounding event.source :=
            h.isSounding event.source
          rw [hsounding]
          cases hsounds : e.isSounding event.source with
          | false => rfl
          | true =>
              cases htop : e.displaced.top? with
              | some note => simp [hunison, hsounds, htop, Answer.isSteal] at hsteal
              | none =>
                  have htop' : f.displaced.top? = none := by
                    have hmap : f.displaced.top?.map Event.timeless = none := by
                      rw [← DisplacedNotes.top?_timeless, h.displaced,
                        DisplacedNotes.top?_timeless, htop]
                      rfl
                    exact Option.map_eq_none_iff.1 hmap
                  rw [htop', hphase]
                  simp only [if_true, Answer.sooner_ite]
                  rfl
  | noteUpdate =>
      have hkind' : (event.sooner k).kind = .noteUpdate := hkind
      simp only [Engine.answer, hkind, hkind']
      rw [Answer.sooner_ite, ← hheldBy]
      rfl
  | sustain =>
      have hkind' : (event.sooner k).kind = .sustain := hkind
      simp only [Engine.answer, hkind, hkind', pedalAnswer, hphase, howner, hchannel]
      rw [Answer.sooner_ite, Answer.sooner_ite]
      rfl
  | controller =>
      have hkind' : (event.sooner k).kind = .controller := hkind
      simp only [Engine.answer, hkind, hkind', controllerAnswer, h.obeys, h.settings, hphase]
      rw [Answer.sooner_ite, Answer.sooner_ite]
      cases e.settings.protocol with
      | conventional =>
          dsimp only
          rw [Answer.sooner_ite, Answer.sooner_moveMod]
          rfl
      | expressive =>
          dsimp only
          rw [Answer.sooner_ite, Answer.sooner_moveMod, ← hheldBy]
          rfl
      | continuousTouch => rfl
  | pitchBend =>
      have hkind' : (event.sooner k).kind = .pitchBend := hkind
      simp only [Engine.answer, hkind, hkind', bendAnswer, h.settings]
      cases e.settings.protocol <;> rfl
  | notePressure =>
      have hkind' : (event.sooner k).kind = .notePressure := hkind
      simp only [Engine.answer, hkind, hkind', pressNoteAnswer, h.settings, howner]
      rw [Answer.sooner_ite]
      rfl
  | channelPressure =>
      have hkind' : (event.sooner k).kind = .channelPressure := hkind
      simp only [Engine.answer, hkind, hkind', pressChannelAnswer, h.settings]
      cases e.settings.protocol with
      | conventional => rfl
      | expressive =>
          dsimp only
          rw [Answer.sooner_ite, ← hheldBy]
          rfl
      | continuousTouch => rfl
  | null =>
      have hkind' : (event.sooner k).kind = .null := hkind
      simp only [Engine.answer, hkind, hkind']
      rfl

end Answering

section Performing

variable {rule : Rule} {e f : Engine} {event : Event}

theorem Matches.heldAfter
    (h : Matches rule e f)
    (hfits : e.bank.count ≤ e.bank.voices.length)
    (hgentle : e.Gentle event)
    (k : Nat) :
    (f.heldAfter (event.sooner k)).timeless = (e.heldAfter event).timeless := by
  have hkind : (event.sooner k).kind = event.kind := rfl
  have hsource : (event.sooner k).source = event.source := rfl
  unfold Engine.heldAfter
  rw [hkind, hsource, h.freeSlot?, h.settings, h.count, h.obeys]
  cases hevent : event.kind with
  | noteOn =>
      dsimp only
      cases hslot : e.held.freeSlot? with
      | none => exact h.held
      | some slot =>
          dsimp only
          have hput : (f.held.put slot (event.sooner k)).timeless
              = (e.held.put slot event).timeless := by
            rw [HeldNotes.timeless_put, HeldNotes.timeless_put, h.held,
              Event.timeless_sooner]
          cases hunison : e.settings.unison with
          | true =>
              rw [if_pos rfl, if_pos rfl]
              split
              · exact h.held
              · have hsounding := h.soundingEvent?
                cases he : e.soundingEvent? with
                | none =>
                    have hf : f.soundingEvent? = none := by
                      rw [he] at hsounding
                      exact Option.map_eq_none_iff.1 hsounding
                    rw [hf]
                    exact hput
                | some sounding =>
                    rw [he, Option.map_some] at hsounding
                    obtain ⟨later, hf, htimeless⟩ := Option.map_eq_some_iff.1 hsounding
                    rw [hf]
                    dsimp only
                    rw [HeldNotes.timeless_forget, HeldNotes.timeless_forget, hput,
                      Event.source_eq_of_timeless htimeless]
          | false =>
              have hslot' : e.held.freeSlot?.isNone = false := by
                rw [hslot]
                rfl
              rw [h.choose? hfits hgentle hevent hunison hslot', if_neg Bool.false_ne_true,
                if_neg Bool.false_ne_true]
              split
              · exact hput
              · rw [HeldNotes.timeless_forget, HeldNotes.timeless_forget, hput]
  | noteOff =>
      dsimp only
      rw [HeldNotes.timeless_forget, HeldNotes.timeless_forget, h.held]
  | controller =>
      dsimp only
      split
      · rfl
      · exact h.held
  | _ => exact h.held

theorem Matches.displacedAfter
    (h : Matches rule e f)
    (k : Nat) :
    (f.displacedAfter (event.sooner k)).timeless = (e.displacedAfter event).timeless := by
  have hkind : (event.sooner k).kind = event.kind := rfl
  have hsource : (event.sooner k).source = event.source := rfl
  unfold Engine.displacedAfter
  rw [hkind, hsource, h.freeSlot?, h.settings, h.count, h.obeys, h.isSounding]
  cases hevent : event.kind with
  | noteOn =>
      dsimp only
      split
      · have hsounding := h.soundingEvent?
        cases he : e.soundingEvent? with
        | none =>
            have hf : f.soundingEvent? = none := by
              rw [he] at hsounding
              exact Option.map_eq_none_iff.1 hsounding
            rw [hf]
            exact h.displaced
        | some sounding =>
            rw [he, Option.map_some] at hsounding
            obtain ⟨later, hf, htimeless⟩ := Option.map_eq_some_iff.1 hsounding
            rw [hf]
            dsimp only
            rw [DisplacedNotes.timeless_push, DisplacedNotes.timeless_push, h.displaced,
              htimeless]
      · exact h.displaced
  | noteOff =>
      dsimp only
      split
      · split
        · rw [DisplacedNotes.timeless_pop, DisplacedNotes.timeless_pop, h.displaced]
        · rw [DisplacedNotes.timeless_forget, DisplacedNotes.timeless_forget, h.displaced]
      · exact h.displaced
  | controller =>
      dsimp only
      split
      · rfl
      · exact h.displaced
  | _ => exact h.displaced

theorem Matches.rotationAfter
    (h : Matches rule e f)
    (hfits : e.bank.count ≤ e.bank.voices.length)
    (hgentle : e.Gentle event)
    (k : Nat) :
    f.rotationAfter (event.sooner k) = e.rotationAfter event := by
  have hkind : (event.sooner k).kind = event.kind := rfl
  unfold Engine.rotationAfter
  rw [hkind, h.settings, h.freeSlot?, h.rotation]
  by_cases hnote :
      event.kind = .noteOn ∧ e.settings.unison = false ∧ e.held.freeSlot?.isSome = true
  · have hslot : e.held.freeSlot?.isNone = false := by
      simpa using hnote.2.2
    rw [if_pos hnote, if_pos hnote, h.choose? hfits hgentle hnote.1 hnote.2.1 hslot]
  · rw [if_neg hnote, if_neg hnote]

/--
A gentle event on one engine, and the same event some samples sooner on the other
one, over which time has passed, leave the engines matching.
-/
theorem Matches.perform
    {k : Nat}
    (h : Matches rule e f)
    (hpasses : rule.Passes k)
    (horder : e.InOrder)
    (hgentle : e.Gentle event)
    (htime : k ≤ event.time) :
    Matches rule (Engine.perform e event) (Engine.perform f (event.sooner k)) := by
  have hback := background_perform e event
  have hback' := background_perform f (event.sooner k)
  have hsilent : f.silences (event.sooner k) = false := by
    rw [← hgentle.1]
    exact h.obeys allSoundOff k
  have htables := tables_perform hgentle.1
  have htables' := tables_perform hsilent
  have hcount : (Engine.perform e event).bank.count = e.bank.count :=
    congrArg Background.count hback
  constructor
  · exact ((congrArg Background.settings hback').trans h.settings).trans
      (congrArg Background.settings hback).symm
  · exact ((congrArg Background.tuningShift hback').trans h.tuningShift).trans
      (congrArg Background.tuningShift hback).symm
  · exact ((congrArg Background.temperament hback').trans h.temperament).trans
      (congrArg Background.temperament hback).symm
  · have hpedal : f.pedalAfter (event.sooner k) = e.pedalAfter event := by
      unfold Engine.pedalAfter
      rw [h.pedal]
      rfl
    exact ((congrArg Tables.pedal htables').trans hpedal).trans
      (congrArg Tables.pedal htables).symm
  · have hheld : (Engine.perform e event).held = e.heldAfter event :=
      congrArg Tables.held htables
    have hheld' : (Engine.perform f (event.sooner k)).held = f.heldAfter (event.sooner k) :=
      congrArg Tables.held htables'
    rw [hheld, hheld']
    exact h.heldAfter horder.fits hgentle k
  · have hdisplaced : (Engine.perform e event).displaced = e.displacedAfter event :=
      congrArg Tables.displaced htables
    have hdisplaced' : (Engine.perform f (event.sooner k)).displaced
        = f.displacedAfter (event.sooner k) :=
      congrArg Tables.displaced htables'
    rw [hdisplaced, hdisplaced']
    exact h.displacedAfter k
  · exact ((congrArg Background.count hback').trans h.count).trans hcount.symm
  · rw [rotation_perform hgentle.1, rotation_perform hsilent]
    exact h.rotationAfter horder.fits hgentle k
  · exact ((congrArg Background.capacity hback').trans h.length).trans
      (congrArg Background.capacity hback).symm
  · intro id v' w' hv' hw'
    rw [voices_perform hgentle.1, answered, Bank.getElem?_mapActiveIdx] at hv'
    rw [voices_perform hsilent, answered, Bank.getElem?_mapActiveIdx, h.count] at hw'
    obtain ⟨v, hv, rfl⟩ := Option.map_eq_some_iff.1 hv'
    obtain ⟨w, hw, rfl⟩ := Option.map_eq_some_iff.1 hw'
    obtain ⟨hessence, hcontrols⟩ := h.voices id v w hv hw
    rw [hcount]
    by_cases hid : id < e.bank.count
    · rw [if_pos hid, if_pos hid, h.answer horder.fits hgentle hid hv hw k, h.temperament,
        Answer.take_eq, Answer.take_eq]
      have hsteal := hgentle.isSteal hid hv
      have horigin : w.originY = v.originY := (Tenancy.of_essence_eq hessence).2.2.2.2.1
      refine ⟨Answer.essence_tenancy_sooner _ k hessence, fun _ => ?_⟩
      apply Controls.ext_get
      intro role
      have hmem : v ∈ e.bank.active := Bank.mem_active_iff.2 ⟨id, hid, hv⟩
      have hchanges :
          ∀ c ∈ (e.answer event id v.toTenancy).changes e.temperament v.toTenancy role,
            k ≤ c.offset := by
        intro c hc
        rw [hgentle.offset_of_mem hid hv hc]
        exact htime
      dsimp only
      rw [Controls.get_scheduleAll, Controls.get_apply, Controls.get_scheduleAll,
        Answer.changes_sooner hsteal horigin, hcontrols hid, Controls.get_apply]
      exact (hpasses.schedule role _ _ (horder.ordered v hmem role) (hgentle.places hid hv role)
        hchanges).symm
    · rw [if_neg hid, if_neg hid]
      exact ⟨hessence, fun hlt => absurd hlt hid⟩

/-- What is gentle on one engine is gentle on the other. -/
theorem Matches.gentle
    {k : Nat}
    (h : Matches rule e f)
    (hpasses : rule.Passes k)
    (horder : e.InOrder)
    (hgentle : e.Gentle event)
    (htime : k ≤ event.time) :
    f.Gentle (event.sooner k) := by
  have hsilent : f.silences (event.sooner k) = false := by
    rw [← hgentle.1]
    exact h.obeys allSoundOff k
  refine ⟨hsilent, ?_⟩
  rintro ⟨w, id⟩ hmem
  rw [List.mem_zipIdx_iff_getElem?] at hmem
  unfold Bank.active at hmem
  rw [List.getElem?_take, h.count] at hmem
  by_cases hid : id < e.bank.count
  · have hw : f.bank.voices[id]? = some w := by
      simpa [hid] using hmem
    obtain ⟨v, hv⟩ := h.exists_origin hw
    have hactive : v ∈ e.bank.active := Bank.mem_active_iff.2 ⟨id, hid, hv⟩
    obtain ⟨hessence, hcontrols⟩ := h.voices id v w hv hw
    have hsteal := hgentle.isSteal hid hv
    have horigin : w.originY = v.originY := (Tenancy.of_essence_eq hessence).2.2.2.2.1
    have hanswer := h.answer horder.fits hgentle hid hv hw k
    dsimp only
    rw [hanswer]
    refine ⟨(Answer.isSteal_sooner _ k).trans hsteal, ?_⟩
    intro role _
    rw [h.temperament, Answer.changes_sooner hsteal horigin, hcontrols hid, Controls.get_apply]
    refine hpasses.places role _ _ (horder.ordered _ hactive role) (hgentle.places hid hv role) ?_
    intro c hc
    rw [hgentle.offset_of_mem hid hv hc]
    exact htime
  · simp [hid] at hmem

/-- Several gentle events leave the engines matching, and are gentle on both. -/
theorem Matches.performAll
    {k : Nat} {events : List Event}
    (h : Matches rule e f)
    (hpasses : rule.Passes k)
    (horder : e.InOrder)
    (hgentle : e.GentleAll events)
    (htimes : ∀ event ∈ events, k ≤ event.time) :
    Matches rule (events.foldl Engine.perform e)
        ((events.map fun event => event.sooner k).foldl Engine.perform f)
      ∧ f.GentleAll (events.map fun event => event.sooner k) := by
  induction events generalizing e f with
  | nil => exact ⟨h, trivial⟩
  | cons event events ih =>
      have htime : k ≤ event.time := htimes event List.mem_cons_self
      have hrest : ∀ event ∈ events, k ≤ event.time :=
        fun event hmem => htimes event (List.mem_cons_of_mem _ hmem)
      have hstep := h.perform hpasses horder hgentle.1 htime
      obtain ⟨hmatches, hall⟩ := ih hstep (horder.perform hgentle.1) hgentle.2 hrest
      exact ⟨hmatches, h.gentle hpasses horder hgentle.1 htime, hall⟩

end Performing

end Engine
end Polyphony
