import Polyphony.Proofs.Engine.Concord
import Polyphony.Proofs.Notes.Held

/-!
# Unison as a stack of keys

In unison an engine plays the key that was pressed last of those that are down.
Behind that stand voice zero as the top of a stack, the stack of displaced notes
below it, the table of held notes, and the pedal.

**Keys.**  `Keys` is what a player has in hands and feet: the keys that are down,
the pedal, and what the pedal keeps sounding.  It moves by itself with every
event, and knows nothing of voices and tables.

**Turns.**  Between two events the host may do things that leave the notes alone,
and a block may end and the next one begin.

**Result.**
* `plays_after`: an engine that starts in silence plays what the keys say.
-/

namespace Polyphony

/-- The keys that are down in unison, and what the pedal keeps. -/
structure Keys where
  /-- The note-ons of the keys that are down, the last pressed first. -/
  down : List Event := []
  /-- Whether the pedal is down. -/
  pedal : Bool
  /-- The source that the pedal keeps sounding. -/
  kept : Option UInt32 := none

/-- What may happen next to an engine. -/
inductive Turn
  /-- An event is performed. -/
  | play (event : Event)
  /-- The host does something. -/
  | host (op : Operation)
  /-- A block of `n` frames ends, and one of `next` frames begins. -/
  | cross (n places next : Nat)

namespace Keys

section Moves

def press (k : Keys) (event : Event) : Keys :=
  { k with down := event :: k.down, kept := none }

/-- A key goes up; if it was the last one, the pedal may keep its note. -/
def lift (k : Keys) (source : UInt32) : Keys :=
  if source ∈ k.down.map Event.source then
    let left := k.down.filter fun n => n.source != source
    { k with
      down := left
      kept := if left.isEmpty && k.pedal then some source else none }
  else k

/-- The pedal moves; when it goes up, it keeps nothing. -/
def movePedal (k : Keys) (pressed : Bool) : Keys :=
  { k with pedal := pressed, kept := if pressed then k.kept else none }

def after (k : Keys) (event : Event) : Keys :=
  match event.kind with
  | .noteOn => k.press event
  | .noteOff => k.lift event.source
  | .sustain => k.movePedal event.pressesPedal
  | _ => k

def turn (k : Keys) : Turn → Keys
  | .play event => k.after event
  | .host _ => k
  | .cross _ _ _ => k

end Moves

end Keys

namespace Engine

/-- The engine after a turn. -/
def turn (e : Engine) : Turn → Engine
  | .play event => e.perform event
  | .host op => e.operate op
  | .cross n places next => ((e.renderVoices n places).2.finish n).opened next

/-- The engine plays what the keys say. -/
structure Plays (e : Engine) (k : Keys) : Prop where
  /-- All voices play the key that was pressed last. -/
  sounding : ∀ top rest, k.down = top :: rest → ∀ v ∈ e.bank.active,
    v.phase = .held ∧ v.owner = some top.source ∧ v.note = top.first
  /-- The other keys wait in the order in which they were pressed. -/
  waiting : e.displaced.inOrder.map Event.timeless = k.down.tail.reverse.map Event.timeless
  /-- Without keys the voices are off, or the pedal keeps the last one. -/
  resting : k.down = [] → ∀ v ∈ e.bank.active,
    match k.kept with
    | none => v.phase = .off
    | some source => v.phase = .sustained ∧ v.owner = some source
  /-- There is room for another note in the table. -/
  room : e.held.freeSlot?.isSome = true

end Engine

namespace Keys

section Conditions

/--
Whether a turn is one of a player in unison: a key that goes down was up, no more
keys are down than have a place, and no mode message takes effect.
-/
def Admits (k : Keys) (e : Engine) : Turn → Prop
  | .play event =>
      e.obeys allSoundOff event = false ∧ e.obeys allNotesOff event = false ∧
        (event.kind = .noteOn →
          event.source ∉ k.down.map Event.source ∧ k.down.length ≤ maxDisplacedNotes)
  | .host op => op.isQuiet = true
  | .cross _ _ _ => True

/-- Whether all of several turns are such turns. -/
def AdmitsAll : Keys → Engine → List Turn → Prop
  | _, _, [] => True
  | k, e, t :: turns => k.Admits e t ∧ AdmitsAll (k.turn t) (e.turn t) turns

/-- What the tenancy of every voice that plays says about the keys. -/
def Shows (k : Keys) (a : Tenancy) : Prop :=
  match k.down with
  | top :: _ =>
      a.phase = .held ∧ a.owner = some top.source ∧ a.note = top.first
        ∧ a.event.timeless = top.timeless
  | [] =>
      match k.kept with
      | none => a.phase = .off
      | some source => a.phase = .sustained ∧ a.owner = some source

/-- How an engine keeps the keys of a player in unison. -/
structure Stacked (k : Keys) (r : Roster) : Prop where
  unison : r.settings.unison = true
  playing : r.active ≠ []
  pedal : r.pedal = k.pedal
  distinct : (k.down.map Event.source).Nodup
  shown : ∀ a ∈ r.active, k.Shows a
  waiting : r.displaced.notes.map Event.timeless = k.down.tail.map Event.timeless
  slots : r.held.slots.length = maxHeldNotes
  single : r.held.length ≤ 1
  table : ∀ n ∈ r.held.notes, ∃ top ∈ k.down.head?, n.source = top.source

end Conditions

section Steps

theorem Shows.of_cons
    {k : Keys} {a : Tenancy} {top : Event} {rest : List Event}
    (h : k.Shows a)
    (hdown : k.down = top :: rest) :
    a.phase = .held ∧ a.owner = some top.source ∧ a.note = top.first
      ∧ a.event.timeless = top.timeless := by
  unfold Shows at h
  rw [hdown] at h
  exact h

theorem Shows.of_nil
    {k : Keys} {a : Tenancy}
    (h : k.Shows a)
    (hdown : k.down = []) :
    match k.kept with
    | none => a.phase = .off
    | some source => a.phase = .sustained ∧ a.owner = some source := by
  unfold Shows at h
  rw [hdown] at h
  exact h

theorem Shows.phase_ne_held
    {k : Keys} {a : Tenancy}
    (h : k.Shows a)
    (hdown : k.down = []) :
    (a.phase == .held) = false := by
  have hrest := h.of_nil hdown
  cases hkept : k.kept with
  | none =>
      have hoff : a.phase = .off := by
        simpa [hkept] using hrest
      rw [hoff]
      rfl
  | some source =>
      have hsustained : a.phase = .sustained ∧ a.owner = some source := by
        simpa [hkept] using hrest
      rw [hsustained.1]
      rfl

variable {k next : Keys} {e : Engine} {event : Event}

theorem Stacked.count_pos
    (h : k.Stacked e.roster) :
    e.bank.count ≠ 0 := by
  intro hzero
  have hcount : e.roster.count = 0 := hzero
  refine h.playing ?_
  rw [Roster.active, hcount, List.take_zero]

theorem Stacked.active_ne_nil
    (h : k.Stacked e.roster) :
    e.bank.active ≠ [] := by
  intro hnil
  refine h.playing ?_
  rw [Engine.active_roster, hnil, List.map_nil]

theorem Stacked.shows
    (h : k.Stacked e.roster)
    {v : Voice}
    (hv : v ∈ e.bank.active) :
    k.Shows v.toTenancy := by
  have hmem : v.toTenancy.ageless ∈ e.roster.active := by
    rw [Engine.active_roster]
    exact List.mem_map_of_mem hv
  have hshows : k.Shows v.toTenancy.ageless := h.shown _ hmem
  exact hshows

theorem Stacked.hasRoom
    (h : k.Stacked e.roster) :
    e.held.freeSlot?.isSome = true := by
  apply HeldNotes.isSome_freeSlot?
  have hslots : e.held.slots.length = maxHeldNotes := h.slots
  have hsingle : e.held.length ≤ 1 := h.single
  rw [hslots]
  unfold maxHeldNotes
  omega

/-- What stacked keys mean for a player. -/
theorem Stacked.plays
    (h : k.Stacked e.roster) :
    e.Plays k where
  sounding := by
    intro top rest hdown v hv
    obtain ⟨hphase, howner, hnote, _⟩ := (h.shows hv).of_cons hdown
    exact ⟨hphase, howner, hnote⟩
  waiting := by
    have hwaiting : e.displaced.notes.map Event.timeless = k.down.tail.map Event.timeless :=
      h.waiting
    unfold DisplacedNotes.inOrder
    rw [List.map_reverse, List.map_reverse, hwaiting]
  resting := by
    intro hdown v hv
    exact (h.shows hv).of_nil hdown
  room := h.hasRoom

/-- An event that does not silence keeps the stack if its parts do. -/
theorem Stacked.perform_of
    (h : k.Stacked e.roster)
    (hsilent : e.silences event = false)
    (hpedal : e.pedalAfter event = next.pedal)
    (hdistinct : (next.down.map Event.source).Nodup)
    (hshown : ∀ id, ∀ v ∈ e.bank.active,
      next.Shows ((e.answer event id v.toTenancy).tenancy v.toTenancy))
    (hwaiting : (e.displacedAfter event).notes.map Event.timeless
      = next.down.tail.map Event.timeless)
    (hslots : (e.heldAfter event).slots.length = maxHeldNotes)
    (hsingle : (e.heldAfter event).length ≤ 1)
    (htable : ∀ n ∈ (e.heldAfter event).notes, ∃ top ∈ next.down.head?, n.source = top.source) :
    next.Stacked (e.perform event).roster := by
  have htables := Engine.tables_perform hsilent
  have hheld : (e.perform event).held = e.heldAfter event :=
    congrArg Engine.Tables.held htables
  have hdisplaced : (e.perform event).displaced = e.displacedAfter event :=
    congrArg Engine.Tables.displaced htables
  have hafter : (e.perform event).pedal = e.pedalAfter event :=
    congrArg Engine.Tables.pedal htables
  have hsettings : (e.perform event).settings = e.settings :=
    congrArg Background.settings (Engine.background_perform e event)
  constructor
  · show (e.perform event).settings.unison = true
    rw [hsettings]
    exact h.unison
  · rw [Engine.active_roster, Engine.active_perform hsilent]
    simpa using h.active_ne_nil
  · exact hafter.trans hpedal
  · exact hdistinct
  · intro a ha
    obtain ⟨id, v, hv, rfl⟩ := Engine.mem_active_roster_perform hsilent ha
    exact hshown id v hv
  · show (e.perform event).displaced.notes.map Event.timeless = _
    rw [hdisplaced]
    exact hwaiting
  · show (e.perform event).held.slots.length = maxHeldNotes
    rw [hheld]
    exact hslots
  · show (e.perform event).held.length ≤ 1
    rw [hheld]
    exact hsingle
  · show ∀ n ∈ (e.perform event).held.notes, _
    rw [hheld]
    exact htable

theorem Stacked.soundingEvent?_of_nil
    (h : k.Stacked e.roster)
    (hdown : k.down = []) :
    e.soundingEvent? = none := by
  obtain ⟨v, hv, hzero⟩ := Bank.exists_voice_zero h.active_ne_nil
  have hphase : (v.phase == .held) = false := (h.shows hv).phase_ne_held hdown
  unfold Engine.soundingEvent?
  rw [hzero]
  simp only [Option.filter_some, hphase]
  rfl

theorem Stacked.soundingEvent?_of_cons
    (h : k.Stacked e.roster)
    {top : Event} {rest : List Event}
    (hdown : k.down = top :: rest) :
    ∃ sounding, e.soundingEvent? = some sounding ∧ sounding.timeless = top.timeless := by
  obtain ⟨v, hv, hzero⟩ := Bank.exists_voice_zero h.active_ne_nil
  obtain ⟨hphase, _, _, htimeless⟩ := (h.shows hv).of_cons hdown
  refine ⟨v.event, ?_, htimeless⟩
  have hheld : (v.phase == .held) = true := by
    rw [hphase]
    rfl
  unfold Engine.soundingEvent?
  rw [hzero]
  simp only [Option.filter_some, hheld]
  rfl

theorem Stacked.isSounding_of_cons
    (h : k.Stacked e.roster)
    {top : Event} {rest : List Event}
    (hdown : k.down = top :: rest)
    (source : UInt32) :
    e.isSounding source = (top.source == source) := by
  obtain ⟨v, hv, hzero⟩ := Bank.exists_voice_zero h.active_ne_nil
  obtain ⟨_, howner, _⟩ := (h.shows hv).of_cons hdown
  simp [Engine.isSounding, hzero, howner]

/-- The notes of the table are all those of the key pressed last. -/
theorem Stacked.table_of_cons
    (h : k.Stacked e.roster)
    {top : Event} {rest : List Event}
    (hdown : k.down = top :: rest) :
    ∀ n ∈ e.held.notes, n.source = top.source := by
  intro n hn
  obtain ⟨key, hkey, hsource⟩ := h.table n hn
  have htop : key = top := by
    simpa [hdown] using hkey.symm
  rw [hsource, htop]

theorem Stacked.table_of_nil
    (h : k.Stacked e.roster)
    (hdown : k.down = []) :
    e.held.length = 0 := by
  unfold HeldNotes.length
  rw [List.length_eq_zero_iff, List.eq_nil_iff_forall_not_mem]
  intro n hn
  obtain ⟨key, hkey, _⟩ := h.table n hn
  rw [hdown] at hkey
  cases hkey

/-- The table after a key was pressed: its note is the only one. -/
theorem Stacked.heldAfter_press
    (h : k.Stacked e.roster)
    (hkind : event.kind = .noteOn)
    (hnew : event.source ∉ k.down.map Event.source) :
    (e.heldAfter event).slots.length = maxHeldNotes
      ∧ (e.heldAfter event).length ≤ 1
      ∧ ∀ n ∈ (e.heldAfter event).notes, n.source = event.source := by
  obtain ⟨slot, hslot⟩ := Option.isSome_iff_exists.1 h.hasRoom
  have hunison : e.settings.unison = true := h.unison
  have hslots : e.held.slots.length = maxHeldNotes := h.slots
  cases hdown : k.down with
  | nil =>
      have hafter : e.heldAfter event = e.held.put slot event := by
        simp [Engine.heldAfter, hkind, hslot, hunison, h.count_pos,
          h.soundingEvent?_of_nil hdown]
      rw [hafter]
      refine ⟨?_, HeldNotes.put_of_length_eq_zero (h.table_of_nil hdown) slot event⟩
      rw [HeldNotes.slots_length_put]
      exact hslots
  | cons top rest =>
      obtain ⟨sounding, hsounding, htimeless⟩ := h.soundingEvent?_of_cons hdown
      have hsource : sounding.source = top.source := Event.source_eq_of_timeless htimeless
      have hne : event.source ≠ top.source := by
        intro heq
        apply hnew
        simp [hdown, heq]
      have hafter : e.heldAfter event = (e.held.forget top.source).put slot event := by
        simp [Engine.heldAfter, hkind, hslot, hunison, h.count_pos, hsounding, hsource,
          HeldNotes.forget_put _ _ hne]
      have hzero : (e.held.forget top.source).length = 0 :=
        HeldNotes.length_forget_eq_zero (h.table_of_cons hdown)
      rw [hafter]
      refine ⟨?_, HeldNotes.put_of_length_eq_zero hzero slot event⟩
      rw [HeldNotes.slots_length_put, HeldNotes.slots_length_forget]
      exact hslots

/-- A new key goes on top of those that are left of the others. -/
theorem Stacked.press_onto
    (h : k.Stacked e.roster)
    (hkind : event.kind = .noteOn)
    (hnew : event.source ∉ k.down.map Event.source)
    {left : List Event}
    (hleft : left.Sublist k.down)
    (hwaiting : (e.displacedAfter event).notes.map Event.timeless = left.map Event.timeless) :
    (({ k with down := left } : Keys).press event).Stacked (e.perform event).roster := by
  obtain ⟨slot, hslot⟩ := Option.isSome_iff_exists.1 h.hasRoom
  have hunison : e.settings.unison = true := h.unison
  have hpedal : e.pedal = k.pedal := h.pedal
  obtain ⟨hslots, hsingle, htable⟩ := h.heldAfter_press hkind hnew
  refine h.perform_of ?_ ?_ ?_ ?_ hwaiting hslots hsingle ?_
  · simp [Engine.silences, Engine.obeys, hkind]
  · simp [Engine.pedalAfter, hkind, Keys.press, hpedal]
  · exact List.nodup_cons.2
      ⟨fun hmem => hnew ((hleft.map _).subset hmem), h.distinct.sublist (hleft.map _)⟩
  · intro id v _
    simp [Engine.answer, hkind, Engine.noteOnAnswer, hslot, hunison, Answer.tenancy, Shows,
      Keys.press]
  · intro n hn
    exact ⟨event, rfl, htable n hn⟩

/-- A new key goes on top of the stack. -/
theorem Stacked.press
    (h : k.Stacked e.roster)
    (hkind : event.kind = .noteOn)
    (hnew : event.source ∉ k.down.map Event.source)
    (hfew : k.down.length ≤ maxDisplacedNotes) :
    (k.press event).Stacked (e.perform event).roster := by
  obtain ⟨slot, hslot⟩ := Option.isSome_iff_exists.1 h.hasRoom
  have hunison : e.settings.unison = true := h.unison
  have hwaiting : e.displaced.notes.map Event.timeless = k.down.tail.map Event.timeless :=
    h.waiting
  refine h.press_onto hkind hnew (List.Sublist.refl k.down) ?_
  cases hdown : k.down with
  | nil =>
      have hafter : e.displacedAfter event = e.displaced := by
        simp [Engine.displacedAfter, hkind, h.soundingEvent?_of_nil hdown]
      rw [hafter, hwaiting, hdown]
      rfl
  | cons top rest =>
      obtain ⟨sounding, hsounding, htimeless⟩ := h.soundingEvent?_of_cons hdown
      have hlength : e.displaced.notes.length = rest.length := by
        simpa [hdown] using congrArg List.length hwaiting
      have hroom : e.displaced.isFull = false := by
        rw [hdown, List.length_cons] at hfew
        simp only [DisplacedNotes.isFull, decide_eq_false_iff_not]
        omega
      have hafter : (e.displacedAfter event).notes = sounding :: e.displaced.notes := by
        simp [Engine.displacedAfter, hkind, hunison, h.count_pos, hslot, hsounding,
          DisplacedNotes.push, hroom]
      rw [hafter, List.map_cons, hwaiting, htimeless, hdown]
      rfl

theorem pedal_lift (k : Keys) (source : UInt32) :
    (k.lift source).pedal = k.pedal := by
  unfold lift
  split
  · rfl
  · rfl

theorem down_lift (k : Keys) (source : UInt32) :
    (k.lift source).down = k.down.filter fun n => n.source != source := by
  unfold lift
  split
  case isTrue => rfl
  case isFalse hfree =>
    symm
    apply List.filter_eq_self.2
    intro n hn
    have hne : n.source ≠ source := by
      intro heq
      exact hfree (List.mem_map.2 ⟨n, hn, heq⟩)
    simpa using hne

theorem kept_lift_of_last
    {k : Keys} {top : Event}
    (hdown : k.down = [top]) :
    (k.lift top.source).kept = if k.pedal then some top.source else none := by
  simp [lift, hdown]

/-- The keys below the top are of other sources. -/
theorem Stacked.filter_rest
    (h : k.Stacked e.roster)
    {top : Event} {rest : List Event}
    (hdown : k.down = top :: rest) :
    k.down.filter (fun n => n.source != top.source) = rest := by
  have hdistinct := h.distinct
  rw [hdown, List.map_cons, List.nodup_cons] at hdistinct
  have hrest : rest.filter (fun n => n.source != top.source) = rest := by
    apply List.filter_eq_self.2
    intro n hn
    have hne : n.source ≠ top.source := by
      intro heq
      exact hdistinct.1 (List.mem_map.2 ⟨n, hn, heq⟩)
    simpa using hne
  rw [hdown, List.filter_cons_of_neg (by simp), hrest]

/-- The table after a key went up has no more notes than before. -/
theorem Stacked.heldAfter_lift
    (h : k.Stacked e.roster)
    (hkind : event.kind = .noteOff) :
    (e.heldAfter event).slots.length = maxHeldNotes
      ∧ (e.heldAfter event).length ≤ 1
      ∧ ∀ n ∈ (e.heldAfter event).notes, n ∈ e.held.notes ∧ n.source ≠ event.source := by
  have hslots : e.held.slots.length = maxHeldNotes := h.slots
  have hsingle : e.held.length ≤ 1 := h.single
  have hafter : e.heldAfter event = e.held.forget event.source := by
    simp [Engine.heldAfter, hkind]
  rw [hafter]
  refine ⟨?_, ?_, ?_⟩
  · rw [HeldNotes.slots_length_forget]
    exact hslots
  · exact Nat.le_trans (HeldNotes.length_forget_le _ _) hsingle
  · intro n hn
    exact HeldNotes.mem_notes_forget.1 hn

/-- The last key goes up: its note ends, or the pedal keeps it. -/
theorem Stacked.shown_lift_last
    (h : k.Stacked e.roster)
    (hkind : event.kind = .noteOff)
    {top : Event}
    (hdown : k.down = [top])
    (hsource : event.source = top.source)
    {v : Voice}
    (hv : v ∈ e.bank.active)
    (id : Nat) :
    (k.lift event.source).Shows ((e.answer event id v.toTenancy).tenancy v.toTenancy) := by
  obtain ⟨hphase, howner, _, _⟩ := (h.shows hv).of_cons hdown
  have hunison : e.settings.unison = true := h.unison
  have hpedal : e.pedal = k.pedal := h.pedal
  have hsounds : e.isSounding event.source = true := by
    rw [h.isSounding_of_cons hdown, hsource]
    simp
  have hwaiting : e.displaced.notes.map Event.timeless = k.down.tail.map Event.timeless :=
    h.waiting
  have htop : e.displaced.top? = none := by
    have hnil : e.displaced.notes = [] := by
      simpa [hdown] using hwaiting
    simp [DisplacedNotes.top?, hnil]
  have hempty : (k.lift event.source).down = [] := by
    rw [down_lift, hsource, h.filter_rest hdown]
  have hkept : (k.lift event.source).kept = if k.pedal then some top.source else none := by
    rw [hsource]
    exact kept_lift_of_last hdown
  have hheld : (v.phase == .held) = true := by
    rw [hphase]
    rfl
  have hanswer : e.answer event id v.toTenancy = e.endAnswer event := by
    simp [Engine.answer, hkind, Engine.noteOffAnswer, hunison, hsounds, htop, hphase]
  rw [hanswer]
  unfold Shows Engine.endAnswer
  rw [hempty, hkept, hpedal]
  cases k.pedal with
  | true => exact ⟨rfl, howner⟩
  | false => rfl

/-- The key on top goes up, and the one below it comes back. -/
theorem Stacked.shown_lift_top
    (h : k.Stacked e.roster)
    (hkind : event.kind = .noteOff)
    {top below : Event} {rest : List Event}
    (hdown : k.down = top :: below :: rest)
    (hsource : event.source = top.source)
    {v : Voice}
    (id : Nat) :
    (k.lift event.source).Shows ((e.answer event id v.toTenancy).tenancy v.toTenancy) := by
  have hunison : e.settings.unison = true := h.unison
  have hsounds : e.isSounding event.source = true := by
    rw [h.isSounding_of_cons hdown, hsource]
    simp
  have hwaiting : e.displaced.notes.map Event.timeless = k.down.tail.map Event.timeless :=
    h.waiting
  have hbelow : (k.lift event.source).down = below :: rest := by
    rw [down_lift, hsource, h.filter_rest hdown]
  obtain ⟨note, others, hnotes, htimeless, _⟩ :
      ∃ note others, e.displaced.notes = note :: others
        ∧ note.timeless = below.timeless ∧ others.map Event.timeless = rest.map Event.timeless := by
    rw [hdown, List.tail_cons, List.map_cons] at hwaiting
    exact List.map_eq_cons_iff.1 hwaiting
  have htop : e.displaced.top? = some note := by
    simp [DisplacedNotes.top?, hnotes]
  have hanswer :
      e.answer event id v.toTenancy
        = .steal (note.moveTo event.time) e.settings.glissando := by
    simp [Engine.answer, hkind, Engine.noteOffAnswer, hunison, hsounds, htop]
  have hfirst : note.first = below.first := by
    have hsame := congrArg Event.first htimeless
    exact hsame
  have hback : note.source = below.source := Event.source_eq_of_timeless htimeless
  rw [hanswer]
  unfold Shows
  rw [hbelow]
  exact ⟨rfl, congrArg some hback, hfirst, htimeless⟩

/-- A key below the top goes up, and nothing else changes. -/
theorem Stacked.shown_lift_buried
    (h : k.Stacked e.roster)
    (hkind : event.kind = .noteOff)
    {top : Event} {rest : List Event}
    (hdown : k.down = top :: rest)
    (hsource : event.source ≠ top.source)
    {v : Voice}
    (hv : v ∈ e.bank.active)
    (id : Nat) :
    (k.lift event.source).Shows ((e.answer event id v.toTenancy).tenancy v.toTenancy) := by
  have hunison : e.settings.unison = true := h.unison
  have hne : top.source ≠ event.source := hsource.symm
  have hsilent : e.isSounding event.source = false := by
    rw [h.isSounding_of_cons hdown]
    simpa using hne
  have hanswer : e.answer event id v.toTenancy = .rest := by
    simp [Engine.answer, hkind, Engine.noteOffAnswer, hunison, hsilent]
  have hkeep : (k.lift event.source).down
      = top :: rest.filter fun n => n.source != event.source := by
    rw [down_lift, hdown, List.filter_cons_of_pos (by simpa using hne)]
  rw [hanswer]
  unfold Shows
  rw [hkeep]
  exact (h.shows hv).of_cons hdown

/-- Without keys down, a key that goes up finds nothing to end. -/
theorem Stacked.shown_lift_nothing
    (h : k.Stacked e.roster)
    (hkind : event.kind = .noteOff)
    (hdown : k.down = [])
    {v : Voice}
    (hv : v ∈ e.bank.active)
    (id : Nat) :
    (k.lift event.source).Shows ((e.answer event id v.toTenancy).tenancy v.toTenancy) := by
  have hunison : e.settings.unison = true := h.unison
  have hphase : (v.phase == .held) = false := (h.shows hv).phase_ne_held hdown
  have hwaiting : e.displaced.notes.map Event.timeless = k.down.tail.map Event.timeless :=
    h.waiting
  have htop : e.displaced.top? = none := by
    have hnil : e.displaced.notes = [] := by
      simpa [hdown] using hwaiting
    simp [DisplacedNotes.top?, hnil]
  have hanswer : e.answer event id v.toTenancy = .rest := by
    simp only [Engine.answer, hkind, Engine.noteOffAnswer, hunison, htop, hphase, if_true,
      if_neg Bool.false_ne_true, ite_self]
  have hsame : k.lift event.source = k := by
    simp [lift, hdown]
  rw [hanswer, hsame]
  exact h.shows hv

/-- The stack of displaced notes after a key went up. -/
theorem Stacked.waiting_lift
    (h : k.Stacked e.roster)
    (hkind : event.kind = .noteOff) :
    (e.displacedAfter event).notes.map Event.timeless
      = (k.lift event.source).down.tail.map Event.timeless := by
  have hunison : e.settings.unison = true := h.unison
  have hwaiting : e.displaced.notes.map Event.timeless = k.down.tail.map Event.timeless :=
    h.waiting
  rw [down_lift]
  cases hdown : k.down with
  | nil =>
      have hnil : e.displaced.notes = [] := by
        simpa [hdown] using hwaiting
      have hafter : (e.displacedAfter event).notes = [] := by
        cases hsounds : e.isSounding event.source <;>
          simp [Engine.displacedAfter, hkind, hunison, hsounds, DisplacedNotes.pop,
            DisplacedNotes.forget, hnil]
      rw [hafter]
      rfl
  | cons top rest =>
      rw [hdown, List.tail_cons] at hwaiting
      by_cases hsource : event.source = top.source
      · have hsounds : e.isSounding event.source = true := by
          rw [h.isSounding_of_cons hdown, hsource]
          simp
        have hafter : (e.displacedAfter event).notes = e.displaced.notes.tail := by
          simp [Engine.displacedAfter, hkind, hunison, hsounds, DisplacedNotes.pop]
        rw [hafter, hsource, ← hdown, h.filter_rest hdown, List.map_tail, hwaiting,
          List.map_tail]
      · have hne : top.source ≠ event.source := fun heq => hsource heq.symm
        have hsilent : e.isSounding event.source = false := by
          rw [h.isSounding_of_cons hdown]
          simpa using hne
        have hafter : (e.displacedAfter event).notes
            = e.displaced.notes.filter fun n => n.source != event.source := by
          simp [Engine.displacedAfter, hkind, hunison, hsilent, DisplacedNotes.forget]
        -- whether a note is of the source can be seen without its time
        have hfilter (notes : List Event) :
            (notes.filter fun n => n.source != event.source).map Event.timeless
              = (notes.map Event.timeless).filter fun n => n.source != event.source := by
          rw [List.filter_map]
          rfl
        rw [hafter, List.filter_cons_of_pos (by simpa using hne), List.tail_cons, hfilter,
          hfilter, hwaiting]

/-- A key that goes up leaves the stack. -/
theorem Stacked.lift
    (h : k.Stacked e.roster)
    (hkind : event.kind = .noteOff) :
    (k.lift event.source).Stacked (e.perform event).roster := by
  obtain ⟨hslots, hsingle, htable⟩ := h.heldAfter_lift hkind
  refine h.perform_of ?_ ?_ ?_ ?_ (h.waiting_lift hkind) hslots hsingle ?_
  · simp [Engine.silences, Engine.obeys, hkind]
  · have hpedal : e.pedal = k.pedal := h.pedal
    rw [pedal_lift, ← hpedal]
    simp [Engine.pedalAfter, hkind]
  · rw [down_lift]
    exact h.distinct.sublist (List.filter_sublist.map _)
  · intro id v hv
    cases hdown : k.down with
    | nil => exact h.shown_lift_nothing hkind hdown hv id
    | cons top rest =>
        by_cases hsource : event.source = top.source
        · cases rest with
          | nil => exact h.shown_lift_last hkind hdown hsource hv id
          | cons below rest => exact h.shown_lift_top hkind hdown hsource id
        · exact h.shown_lift_buried hkind hdown hsource hv id
  · intro n hn
    obtain ⟨hmem, hne⟩ := htable n hn
    obtain ⟨top, htop, hsource⟩ := h.table n hmem
    refine ⟨top, ?_, hsource⟩
    obtain ⟨rest, hdown⟩ := List.head?_eq_some_iff.1 htop
    have hne' : top.source ≠ event.source := by
      rw [← hsource]
      exact hne
    rw [down_lift, hdown, List.filter_cons_of_pos (by simpa using hne')]
    rfl

/-- The pedal goes down, or goes up and ends what it kept. -/
theorem Stacked.movePedal
    (h : k.Stacked e.roster)
    (hkind : event.kind = .sustain) :
    (k.movePedal event.pressesPedal).Stacked (e.perform event).roster := by
  have hheld : e.heldAfter event = e.held := by
    simp [Engine.heldAfter, hkind]
  have hdisplaced : e.displacedAfter event = e.displaced := by
    simp [Engine.displacedAfter, hkind]
  refine h.perform_of ?_ ?_ h.distinct ?_ ?_ ?_ ?_ ?_
  · simp [Engine.silences, Engine.obeys, hkind]
  · simp [Engine.pedalAfter, hkind, Keys.movePedal]
  · intro id v hv
    have hshows := h.shows hv
    have hanswer : e.answer event id v.toTenancy = Engine.pedalAnswer event v.toTenancy := by
      simp [Engine.answer, hkind]
    rw [hanswer]
    unfold Engine.pedalAnswer
    cases hpressed : event.pressesPedal with
    | true => exact hshows
    | false =>
        cases hdown : k.down with
        | cons top rest =>
            obtain ⟨hphase, howner, hnote, htimeless⟩ := hshows.of_cons hdown
            rw [hphase]
            unfold Shows Keys.movePedal
            dsimp only
            rw [hdown]
            exact ⟨hphase, howner, hnote, htimeless⟩
        | nil =>
            have hrest := hshows.of_nil hdown
            unfold Shows Keys.movePedal
            dsimp only
            rw [hdown]
            cases hkept : k.kept with
            | none =>
                have hoff : v.phase = .off := by
                  simpa [hkept] using hrest
                rw [hoff]
                exact hoff
            | some source =>
                have hsustained : v.phase = .sustained ∧ v.owner = some source := by
                  simpa [hkept] using hrest
                rw [hsustained.1]
                rfl
  · rw [hdisplaced]
    exact h.waiting
  · rw [hheld]
    exact h.slots
  · rw [hheld]
    exact h.single
  · rw [hheld]
    exact h.table

/-- Other events change neither tenancies nor tables, if they do not end all notes. -/
theorem Stacked.other
    (h : k.Stacked e.roster)
    (hsilent : e.silences event = false)
    (hnotes : e.obeys allNotesOff event = false)
    (hon : event.kind ≠ .noteOn)
    (hoff : event.kind ≠ .noteOff)
    (hsustain : event.kind ≠ .sustain) :
    k.Stacked (e.perform event).roster := by
  have hheld : e.heldAfter event = e.held := by
    unfold Engine.heldAfter
    split <;> simp_all
  have hdisplaced : e.displacedAfter event = e.displaced := by
    unfold Engine.displacedAfter
    split <;> simp_all
  refine h.perform_of hsilent ?_ h.distinct ?_ ?_ ?_ ?_ ?_
  · have hpedal : e.pedal = k.pedal := h.pedal
    rw [← hpedal]
    simp [Engine.pedalAfter, hsustain]
  · intro id v hv
    rw [Engine.tenancy_answer hnotes hon hoff hsustain]
    exact h.shows hv
  · rw [hdisplaced]
    exact h.waiting
  · rw [hheld]
    exact h.slots
  · rw [hheld]
    exact h.single
  · rw [hheld]
    exact h.table

/-- Every turn of a player keeps the stack. -/
theorem Stacked.turn
    (h : k.Stacked e.roster)
    {t : Turn}
    (ht : k.Admits e t) :
    (k.turn t).Stacked (e.turn t).roster := by
  cases t with
  | play event =>
      obtain ⟨hsilent, hnotes, hon⟩ := ht
      show (k.after event).Stacked (e.perform event).roster
      unfold Keys.after
      cases hkind : event.kind with
      | noteOn => exact h.press hkind (hon hkind).1 (hon hkind).2
      | noteOff => exact h.lift hkind
      | sustain => exact h.movePedal hkind
      | _ => exact h.other hsilent hnotes (by simp [hkind]) (by simp [hkind]) (by simp [hkind])
  | host op =>
      show k.Stacked (e.operate op).roster
      rw [Engine.roster_operate e ht]
      exact h
  | cross n places next =>
      have hroster : (e.turn (.cross n places next)).roster = e.roster := by
        show (((e.renderVoices n places).2.finish n).prepare next).roster = e.roster
        rw [Engine.roster_prepare, Engine.roster_finish, Engine.roster_renderVoices]
      rw [hroster]
      exact h

/-- So do several turns, one after the other. -/
theorem Stacked.turns
    (h : k.Stacked e.roster)
    {turns : List Turn}
    (hturns : k.AdmitsAll e turns) :
    (turns.foldl Keys.turn k).Stacked (turns.foldl Engine.turn e).roster := by
  induction turns generalizing k e with
  | nil => exact h
  | cons t turns ih => exact ih (h.turn hturns.1) hturns.2

theorem AdmitsAll.take
    {turns : List Turn}
    (h : k.AdmitsAll e turns)
    (n : Nat) :
    k.AdmitsAll e (turns.take n) := by
  induction turns generalizing k e n with
  | nil =>
      rw [List.take_nil]
      trivial
  | cons t turns ih =>
      cases n with
      | zero => trivial
      | succ n => exact ⟨h.1, ih h.2 n⟩

/-- In silence no key is down. -/
theorem stacked_silence_of_fits
    (hfits : e.bank.count ≤ e.bank.voices.length)
    (hunison : e.settings.unison = true)
    (hcount : 1 ≤ e.bank.count) :
    Stacked { pedal := e.pedal } e.silence.roster := by
  have hvacant : ∀ a ∈ e.silence.roster.active, a = {} := by
    intro a ha
    obtain ⟨v, hv, rfl⟩ := List.mem_map.1 (List.mem_of_mem_take ha)
    obtain ⟨w, _, rfl⟩ := List.mem_map.1 hv
    rfl
  constructor
  · exact hunison
  · intro hnil
    have hlength := congrArg List.length hnil
    have hboth : e.bank.count = 0 ∨ e.bank.voices = [] := by
      simpa [Roster.active, Engine.roster, Engine.silence, Bank.rewind, Bank.mapAll] using hlength
    rcases hboth with hzero | hempty
    · omega
    · rw [hempty, List.length_nil] at hfits
      omega
  · rfl
  · exact List.nodup_nil
  · intro a ha
    rw [hvacant a ha]
    rfl
  · rfl
  · rfl
  · show HeldNotes.empty.length ≤ 1
    decide
  · intro n hn
    exact absurd hn (HeldNotes.not_mem_notes_empty n)

theorem stacked_silence
    (h : Engine.Midway e)
    (hunison : e.settings.unison = true)
    (hcount : 1 ≤ e.bank.count) :
    Stacked { pedal := e.pedal } e.silence.roster :=
  stacked_silence_of_fits (Engine.concordant_invariant.of_midway h).fits_voices hunison hcount

end Steps

instance (k : Keys) (e : Engine) : (t : Turn) → Decidable (k.Admits e t)
  | .play _ => inferInstanceAs (Decidable (_ ∧ _))
  | .host _ => inferInstanceAs (Decidable (_ = _))
  | .cross _ _ _ => isTrue trivial

instance decidableAdmitsAll : (k : Keys) → (e : Engine) → (turns : List Turn) →
    Decidable (k.AdmitsAll e turns)
  | _, _, [] => isTrue trivial
  | k, e, t :: turns =>
      have := decidableAdmitsAll (k.turn t) (e.turn t) turns
      inferInstanceAs (Decidable (_ ∧ _))

end Keys

namespace Engine

/--
In unison, and from silence on, an engine plays after every turn of a player what
the keys say: the key pressed last sounds on all voices, the others wait in the
order in which they were pressed, and without keys only the pedal keeps a note.
-/
theorem plays_after
    {e : Engine} {turns : List Turn}
    (h : Midway e)
    (hunison : e.settings.unison = true)
    (hcount : 1 ≤ e.bank.count)
    (hturns : Keys.AdmitsAll { pedal := e.pedal } e.silence turns)
    (n : Nat) :
    ((turns.take n).foldl turn e.silence).Plays
      ((turns.take n).foldl Keys.turn { pedal := e.pedal }) :=
  ((Keys.stacked_silence h hunison hcount).turns (hturns.take n)).plays

/-- Two voices in unison that are ready to play. -/
def unisonPair : Engine :=
  ((Engine.idle 2 48000.0 (EventQueue.empty 8) {} .plain).operate
    (.stage { voices := 2, unison := true })).adoptAwaited.opened 16

/-- Two keys go down, the lower one up, and, with the pedal down, the other one. -/
def pedalledTurns : List Turn :=
  [.play (Event.noteOn 7 1 60.0 1.0 0), .play (Event.noteOn 8 1 64.0 1.0 3),
    .cross 16 2 16, .play (Event.noteOff 7 1 1), .host (.push (Event.noteOff 8 1 40)),
    .play (Event.sustain 1 true 2), .play (Event.noteOff 8 1 4)]

theorem midway_unisonPair : Midway unisonPair := by
  exact .opened (.operate (reachableBy_idlePair _) trivial) 16

/-- In the end the pedal keeps the key that went up last. -/
theorem plays_pedalledTurns :
    Midway unisonPair
      ∧ unisonPair.settings.unison = true
      ∧ 1 ≤ unisonPair.bank.count
      ∧ Keys.AdmitsAll { pedal := unisonPair.pedal } unisonPair.silence pedalledTurns
      ∧ (pedalledTurns.foldl turn unisonPair.silence).Plays
          { pedal := true, kept := some 8 } := by
  have hunison : unisonPair.settings.unison = true := by
    decide +kernel
  have hcount : 1 ≤ unisonPair.bank.count := by
    decide +kernel
  have hturns :
      Keys.AdmitsAll { pedal := unisonPair.pedal } unisonPair.silence pedalledTurns := by
    decide +kernel
  have hplays := plays_after midway_unisonPair hunison hcount hturns 7
  exact ⟨midway_unisonPair, hunison, hcount, hturns, hplays⟩

end Engine
end Polyphony
