import Polyphony.Proofs.Engine.Census
import Polyphony.Proofs.Engine.Gates
import Polyphony.Proofs.Notes.Held

/-!
# Who owns a voice

The tenancies of the voices and the tables of an engine are written by many
hands.  They fit together all the same, between two blocks and after every event
of a block.

**Clauses.**
* A voice is off exactly if nobody owns it.
* A voice is sustained only while the pedal is down.
* A voice that does not play notes has nothing left of any note.
* Without unison the owner of every held voice has a note in the table, and no
  note waits.

**Result.**
* `accounted_of_midway`: they hold of every engine that a host reaches, also within
  a block.
-/

namespace Polyphony

namespace Tenancy

/-- Whether a voice is off exactly if nobody owns it. -/
def Owned (tn : Tenancy) : Prop :=
  tn.phase = .off ↔ tn.owner = none

theorem owned_vacant : Tenancy.Owned {} :=
  ⟨fun _ => rfl, fun _ => rfl⟩

end Tenancy

/-- A voice whose answer suits it stays off exactly if nobody owns it. -/
theorem Answer.Suits.owned
    {a : Answer} {tn : Tenancy}
    (hsuits : a.Suits tn)
    (h : tn.Owned) :
    (a.tenancy tn).Owned := by
  unfold Tenancy.Owned at h ⊢
  cases a with
  | rest => exact h
  | start event => simp [Answer.tenancy]
  | steal event retrigger => simp [Answer.tenancy]
  | release event => simp [Answer.tenancy]
  | keep =>
      have hheld : tn.phase = .held := hsuits
      have howner : tn.owner ≠ none := by
        intro hnone
        have hoff := h.2 hnone
        rw [hheld] at hoff
        cases hoff
      simpa [Answer.tenancy] using howner
  | move event => exact h
  | adjust role change => exact h

namespace Roster

/-- How tenancies and tables fit together. -/
structure Accounted (r : Roster) : Prop where
  /-- A voice is off exactly if nobody owns it. -/
  owned : ∀ tn ∈ r.tenancies, tn.Owned
  /-- A voice is sustained only while the pedal is down. -/
  lifted : r.pedal = false → ∀ tn ∈ r.tenancies, tn.phase ≠ .sustained
  /-- A voice that does not play notes is vacant. -/
  spare : ∀ id tn, r.tenancies[id]? = some tn → r.count ≤ id → tn = {}
  /-- Without unison the owner of a held voice has a note in the table. -/
  listed : r.settings.unison = false → ∀ tn ∈ r.tenancies, tn.phase = .held →
    ∃ n ∈ r.held.notes, tn.owner = some n.source

theorem accounted_silent
    (settings : Settings) (pedal : Bool) (count size : Nat) :
    (silent settings pedal count size).Accounted := by
  have hvacant : ∀ tn ∈ (silent settings pedal count size).tenancies, tn = {} :=
    fun tn htn => List.eq_of_mem_replicate htn
  constructor
  · intro tn htn
    rw [hvacant tn htn]
    exact Tenancy.owned_vacant
  · intro _ tn htn
    rw [hvacant tn htn]
    exact Phase.noConfusion
  · intro id tn hid _
    exact hvacant tn (List.mem_of_getElem? hid)
  · intro _ tn htn hheld
    rw [hvacant tn htn] at hheld
    cases hheld

/-- Growing older changes neither phases nor owners, and not the vacant voices. -/
theorem Accounted.grown
    {r : Roster}
    (h : r.Accounted)
    (frames : Nat) :
    (r.grown frames).Accounted := by
  have hmem {tn : Tenancy} (htn : tn ∈ (r.grown frames).tenancies) :
      ∃ old ∈ r.tenancies, tn.phase = old.phase ∧ tn.owner = old.owner := by
    obtain ⟨id, hid, rfl⟩ := List.mem_mapIdx.1 htn
    refine ⟨r.tenancies[id], List.getElem_mem hid, ?_⟩
    split
    · exact ⟨Tenancy.phase_grow _ _, Tenancy.owner_grow _ _⟩
    · exact ⟨rfl, rfl⟩
  constructor
  · intro tn htn
    obtain ⟨old, hold, hphase, howner⟩ := hmem htn
    have howned := h.owned old hold
    unfold Tenancy.Owned at howned ⊢
    rwa [hphase, howner]
  · intro hpedal tn htn
    obtain ⟨old, hold, hphase, _⟩ := hmem htn
    rw [hphase]
    exact h.lifted hpedal old hold
  · intro id tn hid hle
    unfold Roster.grown at hid hle
    dsimp only at hid hle
    rw [List.getElem?_mapIdx] at hid
    obtain ⟨old, hold, rfl⟩ := Option.map_eq_some_iff.1 hid
    rw [if_neg (Nat.not_lt.2 hle)]
    exact h.spare id old hold hle
  · intro hunison tn htn hheld
    obtain ⟨old, hold, hphase, howner⟩ := hmem htn
    rw [hphase] at hheld
    rw [howner]
    exact h.listed hunison old hold hheld

end Roster

namespace Engine

section Accounts

variable {e : Engine} {event : Event}

/-- A tenancy after an event is one before it, or the answer of one. -/
theorem mem_censusAfter
    {tn : Tenancy}
    (htn : tn ∈ (e.censusAfter event).tenancies) :
    ∃ id old, e.census.tenancies[id]? = some old
      ∧ tn = if id < e.bank.count then (e.answer event id old).tenancy old else old := by
  obtain ⟨id, hid, rfl⟩ := List.mem_mapIdx.1 htn
  exact ⟨id, e.census.tenancies[id], List.getElem?_eq_getElem hid, rfl⟩

theorem not_sustained_endAnswer
    (hup : e.pedal = false)
    (tn : Tenancy) :
    ((e.endAnswer event).tenancy tn).phase ≠ .sustained := by
  unfold endAnswer
  rw [hup, if_neg Bool.false_ne_true]
  exact Phase.noConfusion

/-- While the pedal is up after an event, the event leaves no voice to it. -/
theorem not_sustained_answer
    {tn : Tenancy}
    (hup : e.pedalAfter event = false)
    (h : e.pedal = false → tn.phase ≠ .sustained)
    (id : Nat) :
    ((e.answer event id tn).tenancy tn).phase ≠ .sustained := by
  by_cases hsustain : event.kind = .sustain
  · -- the pedal goes up, and a sustained voice is released
    have hpresses : event.pressesPedal = false := by
      simpa [pedalAfter, hsustain] using hup
    simp only [answer, hsustain, pedalAnswer, hpresses, if_neg Bool.false_ne_true]
    split
    case isTrue => exact Phase.noConfusion
    case isFalse hphase => simpa [Answer.tenancy] using hphase
  have hpedal : e.pedal = false := by
    simpa [pedalAfter, hsustain] using hup
  have hbefore := h hpedal
  by_cases hon : event.kind = .noteOn
  · simp only [answer, hon]
    rcases e.noteOnAnswer_cases event id with hrest | hstart | hsteal
    · rw [hrest]
      exact hbefore
    · rw [hstart]
      exact Phase.noConfusion
    · rw [hsteal]
      exact Phase.noConfusion
  by_cases hoff : event.kind = .noteOff
  · simp only [answer, hoff]
    rcases e.noteOffAnswer_cases event tn with hrest | ⟨note, retrigger, hsteal⟩ | hend
    · rw [hrest]
      exact hbefore
    · rw [hsteal]
      exact Phase.noConfusion
    · rw [hend]
      exact not_sustained_endAnswer hpedal tn
  cases hnotes : e.obeys allNotesOff event with
  | true =>
      simp only [answer, kind_of_obeys hnotes, controllerAnswer, hnotes, if_true]
      split
      · exact Phase.noConfusion
      · exact hbefore
  | false =>
      rw [tenancy_answer hnotes hon hoff hsustain]
      exact hbefore

/-- Events keep the accounts, if the owners of the held voices stay in the table. -/
theorem accounted_censusAfter
    (h : e.census.Accounted)
    (hlisted : e.settings.unison = false →
      ∀ tn ∈ (e.censusAfter event).tenancies, tn.phase = .held →
        ∃ n ∈ (e.heldAfter event).notes, tn.owner = some n.source) :
    (e.censusAfter event).Accounted where
  owned := by
    intro tn htn
    obtain ⟨id, old, hold, rfl⟩ := mem_censusAfter htn
    have howned := h.owned old (List.mem_of_getElem? hold)
    split
    · exact (e.proper_answer event id old).suits.owned howned
    · exact howned
  lifted := by
    intro hup tn htn
    obtain ⟨id, old, hold, rfl⟩ := mem_censusAfter htn
    split
    case isTrue =>
      exact not_sustained_answer hup
        (fun hpedal => h.lifted hpedal old (List.mem_of_getElem? hold)) id
    case isFalse hid =>
      rw [h.spare id old hold (Nat.not_lt.1 hid)]
      exact Phase.noConfusion
  spare := by
    intro id tn hid hle
    unfold censusAfter at hid hle
    dsimp only at hid hle
    rw [List.getElem?_mapIdx] at hid
    obtain ⟨old, hold, rfl⟩ := Option.map_eq_some_iff.1 hid
    rw [if_neg (Nat.not_lt.2 hle)]
    exact h.spare id old hold hle
  listed := hlisted

/-- A new note is owned by its source, wherever it is played. -/
theorem owner_noteOnAnswer (e : Engine) (event : Event) (id : Nat) (tn : Tenancy) :
    (e.noteOnAnswer event id).tenancy tn = tn
      ∨ ((e.noteOnAnswer event id).tenancy tn).owner = some event.source := by
  rcases e.noteOnAnswer_cases event id with hrest | hstart | hsteal
  · exact .inl (by rw [hrest]; rfl)
  · exact .inr (by rw [hstart]; rfl)
  · exact .inr (by rw [hsteal]; rfl)

/-- A note is put into the table before a voice takes it. -/
theorem accounted_noteOn
    (h : e.census.Accounted)
    (hkind : event.kind = .noteOn) :
    (e.censusAfter event).Accounted := by
  refine accounted_censusAfter h ?_
  intro hunison tn htn hheld
  obtain ⟨id, old, hold, rfl⟩ := mem_censusAfter htn
  have hlisted := h.listed hunison old (List.mem_of_getElem? hold)
  simp only [answer, hkind] at hheld ⊢
  cases hslot : e.held.freeSlot? with
  | none =>
      have htable : e.heldAfter event = e.held := by
        simp [heldAfter, hkind, hslot]
      have hrest : e.noteOnAnswer event id = .rest := by
        simp [noteOnAnswer, hslot]
      rw [hrest] at hheld ⊢
      rw [htable]
      simp only [Answer.tenancy, ite_self] at hheld ⊢
      exact hlisted hheld
  | some slot =>
      cases hchoice : e.choose? event with
      | none =>
          -- where no voice plays, all voices are vacant
          have hcount : e.bank.count = 0 := Bank.count_of_choose?_eq_none hchoice
          have hspare : ¬ id < e.bank.count := by omega
          rw [if_neg hspare, h.spare id old hold (Nat.not_lt.1 hspare)] at hheld
          cases hheld
      | some choice =>
          have htable : e.heldAfter event = e.held.put slot event := by
            simp [heldAfter, hkind, hslot, hunison, hchoice]
          rw [htable]
          have hnew : event ∈ (e.held.put slot event).notes :=
            (HeldNotes.mem_notes_put_iff hslot).2 (Or.inl rfl)
          have hkept (hbefore : old.phase = .held) :
              ∃ n ∈ (e.held.put slot event).notes, old.owner = some n.source := by
            obtain ⟨n, hn, howner⟩ := hlisted hbefore
            exact ⟨n, (HeldNotes.mem_notes_put_iff hslot).2 (Or.inr hn), howner⟩
          split
          case isTrue hid =>
            rw [if_pos hid] at hheld
            rcases owner_noteOnAnswer e event id old with hsame | howner
            · rw [hsame] at hheld ⊢
              exact hkept hheld
            · exact ⟨event, hnew, howner⟩
          case isFalse hid =>
            rw [if_neg hid] at hheld
            exact hkept hheld

/-- A source that leaves the table leaves the voices that it held. -/
theorem accounted_noteOff
    (h : e.census.Accounted)
    (hkind : event.kind = .noteOff) :
    (e.censusAfter event).Accounted := by
  refine accounted_censusAfter h ?_
  intro hunison tn htn hheld
  obtain ⟨id, old, hold, rfl⟩ := mem_censusAfter htn
  have hlisted := h.listed hunison old (List.mem_of_getElem? hold)
  have htable : e.heldAfter event = e.held.forget event.source := by
    simp [heldAfter, hkind]
  have hkept (hbefore : old.phase = .held) (hother : old.owner ≠ some event.source) :
      ∃ n ∈ (e.held.forget event.source).notes, old.owner = some n.source := by
    obtain ⟨n, hn, howner⟩ := hlisted hbefore
    refine ⟨n, HeldNotes.mem_notes_forget.2 ⟨hn, ?_⟩, howner⟩
    rintro hsource
    exact hother (by rw [howner, hsource])
  rw [htable]
  simp only [answer, hkind, noteOffAnswer, hunison, if_neg Bool.false_ne_true] at hheld ⊢
  split
  case isTrue hid =>
    rw [if_pos hid] at hheld
    split
    case isTrue howned =>
      -- the voice is released or kept by the pedal
      rw [if_pos howned] at hheld
      exact absurd hheld (not_held_endAnswer e event old)
    case isFalse hother =>
      rw [if_neg hother] at hheld
      have hphase : old.phase = .held := hheld
      refine hkept hphase ?_
      intro howner
      exact hother (by simp [Tenancy.heldBy, hphase, howner])
  case isFalse hid =>
    rw [if_neg hid] at hheld
    have hvacant := h.spare id old hold (Nat.not_lt.1 hid)
    rw [hvacant] at hheld
    cases hheld

/-- A voice that is held after the pedal has moved was held before. -/
theorem accounted_sustain
    (h : e.census.Accounted)
    (hkind : event.kind = .sustain) :
    (e.censusAfter event).Accounted := by
  refine accounted_censusAfter h ?_
  intro hunison tn htn hheld
  obtain ⟨id, old, hold, rfl⟩ := mem_censusAfter htn
  have hlisted := h.listed hunison old (List.mem_of_getElem? hold)
  have htable : e.heldAfter event = e.held := by
    simp [heldAfter, hkind]
  rw [htable]
  simp only [answer, hkind] at hheld ⊢
  split
  case isTrue hid =>
    rw [if_pos hid] at hheld
    have hsame := tenancy_pedalAnswer_of_held hheld
    rw [hsame] at hheld ⊢
    exact hlisted hheld
  case isFalse hid =>
    rw [if_neg hid] at hheld
    exact hlisted hheld

/-- No voice is held after the end of all notes. -/
theorem accounted_allNotesOff
    (h : e.census.Accounted)
    (hnotes : e.obeys allNotesOff event = true) :
    (e.censusAfter event).Accounted := by
  refine accounted_censusAfter h ?_
  intro _ tn htn hheld
  obtain ⟨id, old, hold, rfl⟩ := mem_censusAfter htn
  exfalso
  split at hheld
  case isTrue => exact not_held_answer_of_obeys hnotes id old hheld
  case isFalse hid =>
    rw [h.spare id old hold (Nat.not_lt.1 hid)] at hheld
    cases hheld

/-- Tenancies and tables fit together, whatever a host does. -/
theorem accounted_invariant : CensusInvariant Roster.Accounted where
  silent := fun settings pedal count size _ =>
    Roster.accounted_silent settings pedal count size
  resettled := fun r settings _ hunison h =>
    { owned := h.owned
      lifted := h.lifted
      spare := h.spare
      listed := fun hnew => h.listed (by rw [← hunison]; exact hnew) }
  grown := fun _ frames h => h.grown frames
  pressed := fun _ _ _ hkind h => accounted_noteOn h hkind
  released := fun _ _ _ hkind h => accounted_noteOff h hkind
  pedalled := fun _ _ _ hkind h => accounted_sustain h hkind
  ended := fun _ _ _ hnotes h => accounted_allNotesOff h hnotes

/-- How the voices of an engine fit its pedal and its tables. -/
structure Accounted (e : Engine) : Prop where
  /-- A voice is off exactly if nobody owns it. -/
  off_iff : ∀ v ∈ e.bank.voices, v.phase = .off ↔ v.owner = none
  /-- While the pedal is up, no voice is sustained. -/
  lifted : e.pedal = false → ∀ v ∈ e.bank.voices, v.phase ≠ .sustained
  /-- A voice that does not play notes is vacant. -/
  spare : ∀ id v, e.bank.voices[id]? = some v → e.bank.count ≤ id → v.toTenancy = {}
  /-- Without unison the owner of a held voice has a note in the table. -/
  listed : e.settings.unison = false → ∀ v ∈ e.bank.voices, v.phase = .held →
    ∃ n ∈ e.held.notes, v.owner = some n.source
  /-- Without unison no note waits. -/
  alone : e.settings.unison = false → e.displaced.notes = []

/-- The voices fit the pedal and the tables, between two blocks and after every event. -/
theorem accounted_of_midway
    (h : Midway e) :
    e.Accounted := by
  have haccounted := accounted_invariant.of_midway h
  have hconcord := concordant_invariant.of_midway h
  have hmem {v : Voice} (hv : v ∈ e.bank.voices) : v.toTenancy ∈ e.census.tenancies :=
    List.mem_map_of_mem hv
  constructor
  · intro v hv
    exact haccounted.owned _ (hmem hv)
  · intro hpedal v hv
    exact haccounted.lifted hpedal _ (hmem hv)
  · intro id v hid hle
    refine haccounted.spare id v.toTenancy ?_ hle
    show (e.bank.voices.map Voice.toTenancy)[id]? = _
    rw [List.getElem?_map, hid]
    rfl
  · intro hunison v hv hheld
    exact haccounted.listed hunison _ (hmem hv) hheld
  · exact hconcord.alone

/-- Two voices with the pedal down: the key of one note is up, that of the other is down. -/
def sustainedPair : Engine :=
  [Event.sustain 1 true 0, Event.noteOn 3 1 60.0 1.0 0, Event.noteOff 3 1 1,
    Event.noteOn 4 1 64.0 1.0 2].foldl perform
      (((idle 2 48000.0 (EventQueue.empty 8) {} .plain).stage
        { voices := 2 }).adoptAwaited.opened 8)

theorem midway_sustainedPair : Midway sustainedPair := by
  have hstaged :
      Reachable
        ((idle 2 48000.0 (EventQueue.empty 8) {} .plain).operate (.stage { voices := 2 })) :=
    .operate (reachableBy_idlePair _) trivial
  exact (Midway.opened hstaged 8).performAll _

/-- The pedal keeps the voice of the first note, and the second note is in the table. -/
theorem accounted_sustainedPair :
    Midway sustainedPair
      ∧ sustainedPair.Accounted
      ∧ (sustainedPair.bank.voices.map fun v => (v.phase, v.owner))
          = [(.sustained, some 3), (.held, some 4)]
      ∧ sustainedPair.held.notes.map Event.source = [4] :=
  ⟨midway_sustainedPair, accounted_of_midway midway_sustainedPair,
    by decide +kernel, by decide +kernel⟩

end Accounts

end Engine
end Polyphony
