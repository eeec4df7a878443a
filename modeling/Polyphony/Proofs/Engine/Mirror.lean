import Polyphony.Proofs.Engine.Census
import Polyphony.Proofs.Notes.Held

/-!
# Voices in unison mirror each other

In unison an engine decides by voice zero and then writes to all voices that
play.  Nothing compares them, but they never differ: not in phase, owner,
channel and note, and not in age, origin or event either.

**Held along.**  That the voices stay alike depends on what the tables know of
the sounding note.  Every note in the table is of the source that holds all
voices; a held voice plays an event of its owner; and while a note waits, all
voices are held.

**Result.**
* `mirrored_of_midway`: in unison the voices that play have one tenancy, notes wait
  only below a held one, and the table holds at most one note.
-/

namespace Polyphony

namespace Roster

/-- In unison the voices that play have one tenancy, which the tables know. -/
structure Mirrored (r : Roster) : Prop where
  /-- The voices that play have one tenancy. -/
  alike : ∀ a ∈ r.active, ∀ b ∈ r.active, a = b
  /-- There is at most one note in the table. -/
  single : r.held.length ≤ 1
  /-- The source of a note in the table holds all voices that play. -/
  sounding : ∀ n ∈ r.held.notes,
    r.active ≠ [] ∧ ∀ a ∈ r.active, a.phase = .held ∧ a.owner = some n.source
  /-- A held voice plays an event of its owner. -/
  telling : ∀ a ∈ r.active, a.phase = .held → a.owner = some a.event.source
  /-- While a note waits, all voices that play are held. -/
  waiting : r.displaced.notes ≠ [] → ∀ a ∈ r.active, a.phase = .held

theorem mirrored_silent
    (settings : Settings) (pedal : Bool) (count size : Nat) :
    (silent settings pedal count size).Mirrored := by
  have hvacant : ∀ a ∈ (silent settings pedal count size).active, a = {} :=
    fun a ha => List.eq_of_mem_replicate (List.mem_of_mem_take ha)
  constructor
  · intro a ha b hb
    rw [hvacant a ha, hvacant b hb]
  · exact Nat.zero_le _
  · intro n hn
    cases hn
  · intro a ha hheld
    rw [hvacant a ha] at hheld
    cases hheld
  · intro hne
    exact absurd rfl hne

theorem Mirrored.grown
    {r : Roster}
    (h : r.Mirrored)
    (frames : Nat) :
    (r.grown frames).Mirrored := by
  have hmem {a : Tenancy} (ha : a ∈ (r.grown frames).active) :
      ∃ old ∈ r.active, a = old.grow frames := by
    rw [active_grown] at ha
    obtain ⟨old, hold, rfl⟩ := List.mem_map.1 ha
    exact ⟨old, hold, rfl⟩
  constructor
  · intro a ha b hb
    obtain ⟨old, hold, rfl⟩ := hmem ha
    obtain ⟨other, hother, rfl⟩ := hmem hb
    rw [h.alike old hold other hother]
  · exact h.single
  · intro n hn
    obtain ⟨hne, hall⟩ := h.sounding n hn
    refine ⟨?_, ?_⟩
    · rw [active_grown]
      simpa using hne
    · intro a ha
      obtain ⟨old, hold, rfl⟩ := hmem ha
      rw [Tenancy.phase_grow, Tenancy.owner_grow]
      exact hall old hold
  · intro a ha hheld
    obtain ⟨old, hold, rfl⟩ := hmem ha
    rw [Tenancy.phase_grow] at hheld
    rw [Tenancy.owner_grow, Tenancy.event_grow]
    exact h.telling old hold hheld
  · intro hne a ha
    obtain ⟨old, hold, rfl⟩ := hmem ha
    rw [Tenancy.phase_grow]
    exact h.waiting hne old hold

end Roster

namespace Engine

section Mirrors

variable {e : Engine} {event : Event}

/-- In unison the answer of a voice does not depend on its number. -/
theorem answer_unison
    (hunison : e.settings.unison = true)
    (id : Nat) (tn : Tenancy) :
    e.answer event id tn = e.answer event 0 tn := by
  unfold answer noteOnAnswer
  rw [hunison]
  rfl

/-- In unison one function takes the voices that play to what they are after an event. -/
theorem active_censusAfter_unison
    (hunison : e.settings.unison = true) :
    (e.censusAfter event).active
      = e.census.active.map fun tn => (e.answer event 0 tn).tenancy tn := by
  rw [active_censusAfter]
  apply List.ext_getElem?
  intro id
  simp only [List.getElem?_mapIdx, List.getElem?_map, answer_unison hunison]

/-- Voice zero, by which the engine decides, stands for all voices that play. -/
theorem exists_first
    (h : e.census.active ≠ []) :
    ∃ v, e.bank.voice? 0 = some v ∧ v.toTenancy ∈ e.census.active := by
  rw [active_census] at h ⊢
  have hne : e.bank.active ≠ [] := by
    rintro hnil
    rw [hnil] at h
    exact h rfl
  obtain ⟨v, hv, hzero⟩ := Bank.exists_voice_zero hne
  exact ⟨v, hzero, List.mem_map_of_mem hv⟩

/-- An event keeps the mirror if its answers and tables fit each other. -/
theorem mirrored_censusAfter
    (hunison : e.settings.unison = true)
    (h : e.census.Mirrored)
    (hsingle : (e.heldAfter event).length ≤ 1)
    (hsounding : ∀ n ∈ (e.heldAfter event).notes,
      e.census.active ≠ [] ∧ ∀ tn ∈ e.census.active,
        ((e.answer event 0 tn).tenancy tn).phase = .held
          ∧ ((e.answer event 0 tn).tenancy tn).owner = some n.source)
    (htelling : ∀ tn ∈ e.census.active,
      ((e.answer event 0 tn).tenancy tn).phase = .held →
        ((e.answer event 0 tn).tenancy tn).owner
          = some ((e.answer event 0 tn).tenancy tn).event.source)
    (hwaiting : (e.displacedAfter event).notes ≠ [] → ∀ tn ∈ e.census.active,
      ((e.answer event 0 tn).tenancy tn).phase = .held) :
    (e.censusAfter event).Mirrored := by
  have hactive :
      (e.censusAfter event).active
        = e.census.active.map fun tn => (e.answer event 0 tn).tenancy tn :=
    active_censusAfter_unison hunison
  constructor
  · intro a ha b hb
    rw [hactive] at ha hb
    obtain ⟨old, hold, rfl⟩ := List.mem_map.1 ha
    obtain ⟨other, hother, rfl⟩ := List.mem_map.1 hb
    rw [h.alike old hold other hother]
  · exact hsingle
  · intro n hn
    obtain ⟨hne, hall⟩ := hsounding n hn
    rw [hactive]
    refine ⟨by simpa using hne, ?_⟩
    intro a ha
    obtain ⟨old, hold, rfl⟩ := List.mem_map.1 ha
    exact hall old hold
  · intro a ha hheld
    rw [hactive] at ha
    obtain ⟨old, hold, rfl⟩ := List.mem_map.1 ha
    exact htelling old hold hheld
  · intro hne a ha
    rw [hactive] at ha
    obtain ⟨old, hold, rfl⟩ := List.mem_map.1 ha
    exact hwaiting hne old hold

/-- An event keeps the mirror if the voices go on and no note joins the tables. -/
theorem mirrored_of_untouched
    (hunison : e.settings.unison = true)
    (h : e.census.Mirrored)
    (hanswer : ∀ tn, (e.answer event 0 tn).tenancy tn = tn)
    (hlength : (e.heldAfter event).length ≤ e.held.length)
    (htable : ∀ n ∈ (e.heldAfter event).notes, n ∈ e.held.notes)
    (hstack : (e.displacedAfter event).notes ≠ [] → e.displaced.notes ≠ []) :
    (e.censusAfter event).Mirrored := by
  apply mirrored_censusAfter hunison h
  · exact Nat.le_trans hlength h.single
  · intro n hn
    simp only [hanswer]
    exact h.sounding n (htable n hn)
  · simp only [hanswer]
    exact h.telling
  · intro hne
    simp only [hanswer]
    exact h.waiting (hstack hne)

/-- Where voices play and a note is in the table, voice zero is held by its source. -/
theorem sounding_first
    (h : e.census.Mirrored)
    {n : Event}
    (hn : n ∈ e.held.notes) :
    ∃ v, e.bank.voice? 0 = some v ∧ v.phase = .held ∧ v.owner = some n.source := by
  obtain ⟨hne, hall⟩ := h.sounding n hn
  obtain ⟨v, hzero, hmem⟩ := exists_first hne
  exact ⟨v, hzero, hall _ hmem⟩

/-- A new note is the only one in the table, for the one that sounded has left it. -/
theorem heldAfter_noteOn
    (hkind : event.kind = .noteOn)
    (hunison : e.settings.unison = true)
    (h : e.census.Mirrored)
    {slot : Nat}
    (hslot : e.held.freeSlot? = some slot)
    (hplays : e.census.active ≠ []) :
    (e.heldAfter event).length ≤ 1
      ∧ ∀ n ∈ (e.heldAfter event).notes, n.source = event.source := by
  have hcount : e.bank.count ≠ 0 := by
    intro hzero
    apply hplays
    show List.take e.bank.count _ = []
    rw [hzero, List.take_zero]
  obtain ⟨first, hzero, hfirst⟩ := exists_first hplays
  cases hsounding : e.soundingEvent? with
  | none =>
      have hempty : e.held.length = 0 := by
        rw [HeldNotes.length, List.length_eq_zero_iff, List.eq_nil_iff_forall_not_mem]
        intro n hn
        obtain ⟨v, hv, hheld, _⟩ := sounding_first h hn
        simp [soundingEvent?, hv, hheld] at hsounding
      have hafter : e.heldAfter event = e.held.put slot event := by
        simp [heldAfter, hkind, hslot, hunison, hcount, hsounding]
      rw [hafter]
      exact HeldNotes.put_of_length_eq_zero hempty slot event
  | some sounding =>
      -- the notes in the table are of the source that sounds
      obtain ⟨hheld, hplaying⟩ : first.phase = .held ∧ first.event = sounding := by
        simpa [soundingEvent?, hzero] using hsounding
      have hsource : ∀ n ∈ e.held.notes, n.source = sounding.source := by
        intro n hn
        have howner := ((h.sounding n hn).2 _ hfirst).2
        rw [h.telling _ hfirst hheld, Option.some.injEq] at howner
        rw [← howner, hplaying]
      have hafter : e.heldAfter event = (e.held.put slot event).forget sounding.source := by
        simp [heldAfter, hkind, hslot, hunison, hcount, hsounding]
      rw [hafter]
      by_cases hsame : event.source = sounding.source
      · have hall : ∀ n ∈ (e.held.put slot event).notes, n.source = sounding.source := by
          intro n hn
          rcases HeldNotes.mem_notes_put hn with rfl | hold
          · exact hsame
          · exact hsource n hold
        have hempty := HeldNotes.length_forget_eq_zero hall
        refine ⟨by omega, ?_⟩
        intro n hn
        have hpos := List.length_pos_of_mem hn
        rw [HeldNotes.length] at hempty
        omega
      · rw [HeldNotes.forget_put _ _ hsame]
        exact HeldNotes.put_of_length_eq_zero (HeldNotes.length_forget_eq_zero hsource) _ _

theorem count_of_active_eq_nil
    (hconcord : e.roster.Concordant)
    (h : e.census.active = []) :
    e.bank.count = 0 := by
  have hfits := hconcord.fits_voices
  rcases List.take_eq_nil_iff.1 h with hcount | hnone
  · exact hcount
  · have hvoices : e.bank.voices = [] := List.map_eq_nil_iff.1 hnone
    simpa [hvoices] using hfits

theorem mirrored_noteOn
    (hconcord : e.roster.Concordant)
    (hunison : e.settings.unison = true)
    (h : e.census.Mirrored)
    (hkind : event.kind = .noteOn) :
    (e.censusAfter event).Mirrored := by
  cases hslot : e.held.freeSlot? with
  | none =>
      -- the note is dropped before it reaches anything
      have hanswer (tn : Tenancy) : (e.answer event 0 tn).tenancy tn = tn := by
        simp [answer, hkind, noteOnAnswer, hslot, Answer.tenancy]
      have htable : e.heldAfter event = e.held := by
        simp [heldAfter, hkind, hslot]
      have hstack : e.displacedAfter event = e.displaced := by
        simp [displacedAfter, hkind, hslot]
      apply mirrored_of_untouched hunison h hanswer
      · rw [htable]
      · rw [htable]
        exact fun n hn => hn
      · rw [hstack]
        exact fun hne => hne
  | some slot =>
      by_cases hplays : e.census.active = []
      · have hcount := count_of_active_eq_nil hconcord hplays
        have htable : e.heldAfter event = e.held := by
          simp [heldAfter, hkind, hslot, hunison, hcount]
        apply mirrored_censusAfter hunison h
        · rw [htable]
          exact h.single
        · intro n hn
          rw [htable] at hn
          exact absurd hplays (h.sounding n hn).1
        · simp [hplays]
        · simp [hplays]
      · have hanswer (tn : Tenancy) :
            (e.answer event 0 tn).tenancy tn = (Answer.start event).tenancy tn := by
          simp [answer, hkind, noteOnAnswer, hslot, hunison]
        obtain ⟨hsingle, hsource⟩ := heldAfter_noteOn hkind hunison h hslot hplays
        apply mirrored_censusAfter hunison h hsingle
        · intro n hn
          refine ⟨hplays, ?_⟩
          intro tn _
          rw [hanswer, hsource n hn]
          exact ⟨rfl, rfl⟩
        · intro tn _ _
          rw [hanswer]
          rfl
        · intro _ tn _
          rw [hanswer]
          rfl

/-- Without the source that sounds, nothing is left in the table. -/
theorem forget_noteOff
    (h : e.census.Mirrored)
    (hsounds : e.isSounding event.source = true) :
    (e.held.forget event.source).length = 0 := by
  apply HeldNotes.length_forget_eq_zero
  intro n hn
  obtain ⟨v, hzero, _, howner⟩ := sounding_first h hn
  simpa [isSounding, hzero, howner] using hsounds

/-- When the source that sounds leaves, the last note that waits is back, or the voices end. -/
theorem mirrored_noteOff_sounding
    (hunison : e.settings.unison = true)
    (h : e.census.Mirrored)
    (hkind : event.kind = .noteOff)
    (hsounds : e.isSounding event.source = true) :
    (e.censusAfter event).Mirrored := by
  have hempty : (e.heldAfter event).length = 0 := by
    have htable : e.heldAfter event = e.held.forget event.source := by
      simp [heldAfter, hkind]
    rw [htable]
    exact forget_noteOff h hsounds
  have hsounding {P : Event → Prop} : ∀ n ∈ (e.heldAfter event).notes, P n := by
    intro n hn
    have hpos := List.length_pos_of_mem hn
    rw [HeldNotes.length] at hempty
    omega
  cases htop : e.displaced.top? with
  | some note =>
      have hanswer (tn : Tenancy) :
          (e.answer event 0 tn).tenancy tn
            = (Answer.steal (note.moveTo event.time) e.settings.glissando).tenancy tn := by
        simp [answer, hkind, noteOffAnswer, hunison, hsounds, htop]
      apply mirrored_censusAfter hunison h (by omega) hsounding
      · intro tn _ _
        rw [hanswer]
        rfl
      · intro _ tn _
        rw [hanswer]
        rfl
  | none =>
      have hnil : e.displaced.notes = [] := by
        simpa [DisplacedNotes.top?] using htop
      have hstack : (e.displacedAfter event).notes = [] := by
        simp [displacedAfter, hkind, hunison, hsounds, DisplacedNotes.pop, hnil]
      have hanswer (tn : Tenancy) :
          ((e.answer event 0 tn).tenancy tn).phase ≠ .held := by
        simp only [answer, hkind, noteOffAnswer, hunison, hsounds, htop, if_true]
        split
        case isTrue => exact not_held_endAnswer e event tn
        case isFalse hphase => simpa [Answer.tenancy] using hphase
      apply mirrored_censusAfter hunison h (by omega) hsounding
      · intro tn _ hheld
        exact absurd hheld (hanswer tn)
      · intro hne
        exact absurd hstack hne

theorem mirrored_noteOff
    (hunison : e.settings.unison = true)
    (h : e.census.Mirrored)
    (hkind : event.kind = .noteOff) :
    (e.censusAfter event).Mirrored := by
  cases hsounds : e.isSounding event.source with
  | true => exact mirrored_noteOff_sounding hunison h hkind hsounds
  | false =>
      -- the source may wait, but the voices go on
      have hanswer (tn : Tenancy) : (e.answer event 0 tn).tenancy tn = tn := by
        simp [answer, hkind, noteOffAnswer, hunison, hsounds, Answer.tenancy]
      have htable : e.heldAfter event = e.held.forget event.source := by
        simp [heldAfter, hkind]
      have hstack : e.displacedAfter event = e.displaced.forget event.source := by
        simp [displacedAfter, hkind, hunison, hsounds]
      apply mirrored_of_untouched hunison h hanswer
      · rw [htable]
        exact HeldNotes.length_forget_le _ _
      · intro n hn
        rw [htable] at hn
        exact (HeldNotes.mem_notes_forget.1 hn).1
      · intro hne hnil
        apply hne
        rw [hstack]
        simp [DisplacedNotes.forget, hnil]

/-- The pedal does not touch a held voice. -/
theorem pedalAnswer_of_held
    {tn : Tenancy}
    (hheld : tn.phase = .held) :
    (pedalAnswer event tn).tenancy tn = tn := by
  simp [pedalAnswer, hheld, Answer.tenancy]

theorem mirrored_sustain
    (hunison : e.settings.unison = true)
    (h : e.census.Mirrored)
    (hkind : event.kind = .sustain) :
    (e.censusAfter event).Mirrored := by
  have hanswer (tn : Tenancy) : e.answer event 0 tn = pedalAnswer event tn := by
    simp [answer, hkind]
  have htable : e.heldAfter event = e.held := by
    simp [heldAfter, hkind]
  have hstack : e.displacedAfter event = e.displaced := by
    simp [displacedAfter, hkind]
  apply mirrored_censusAfter hunison h
  · rw [htable]
    exact h.single
  · intro n hn
    rw [htable] at hn
    obtain ⟨hne, hall⟩ := h.sounding n hn
    refine ⟨hne, ?_⟩
    intro tn htn
    rw [hanswer, pedalAnswer_of_held (hall tn htn).1]
    exact hall tn htn
  · intro tn htn hheld
    rw [hanswer] at hheld ⊢
    have hsame := tenancy_pedalAnswer_of_held hheld
    rw [hsame] at hheld ⊢
    exact h.telling tn htn hheld
  · intro hne tn htn
    rw [hstack] at hne
    have hheld := h.waiting hne tn htn
    rw [hanswer, pedalAnswer_of_held hheld]
    exact hheld

theorem mirrored_allNotesOff
    (hunison : e.settings.unison = true)
    (h : e.census.Mirrored)
    (hnotes : e.obeys allNotesOff event = true) :
    (e.censusAfter event).Mirrored := by
  have hkind := kind_of_obeys hnotes
  have htable : e.heldAfter event = .empty := by
    simp [heldAfter, hkind, hnotes]
  have hstack : e.displacedAfter event = .empty := by
    simp [displacedAfter, hkind, hnotes]
  apply mirrored_censusAfter hunison h
  · rw [htable]
    exact Nat.zero_le _
  · intro n hn
    rw [htable] at hn
    cases hn
  · intro tn _ hheld
    exact absurd hheld (not_held_answer_of_obeys hnotes 0 tn)
  · intro hne
    rw [hstack] at hne
    exact absurd rfl hne

/-- In unison the voices mirror each other, whatever a host does. -/
theorem mirrored_invariant :
    CensusInvariant fun r => r.settings.unison = true → r.Mirrored where
  silent := fun settings pedal count size _ _ => Roster.mirrored_silent settings pedal count size
  resettled := fun r settings _ hsame h hunison =>
    have hbefore := h (by rw [← hsame]; exact hunison)
    { alike := hbefore.alike
      single := hbefore.single
      sounding := hbefore.sounding
      telling := hbefore.telling
      waiting := hbefore.waiting }
  grown := fun _ frames h hunison => (h hunison).grown frames
  pressed := fun _ _ hconcord hkind h hunison =>
    mirrored_noteOn hconcord hunison (h hunison) hkind
  released := fun _ _ _ hkind h hunison => mirrored_noteOff hunison (h hunison) hkind
  pedalled := fun _ _ _ hkind h hunison => mirrored_sustain hunison (h hunison) hkind
  ended := fun _ _ _ hnotes h hunison => mirrored_allNotesOff hunison (h hunison) hnotes

/-- How the voices of an engine in unison agree with each other and with its tables. -/
structure Mirrored (e : Engine) : Prop where
  /-- The voices that play have one tenancy: phase, owner, channel, note, age, origin, event. -/
  alike : ∀ v ∈ e.bank.active, ∀ w ∈ e.bank.active, v.toTenancy = w.toTenancy
  /-- Where a note waits, voices play, and all of them are held. -/
  waiting : e.displaced.notes ≠ [] →
    1 ≤ e.bank.count ∧ ∀ v ∈ e.bank.active, v.phase = .held
  /-- The table holds at most one note. -/
  single : e.held.length ≤ 1

/-- In unison the voices that play mirror each other, also within a block. -/
theorem mirrored_of_midway
    (h : Midway e)
    (hunison : e.settings.unison = true) :
    e.Mirrored := by
  have hmirrored := mirrored_invariant.of_midway h hunison
  have hmem {v : Voice} (hv : v ∈ e.bank.active) : v.toTenancy ∈ e.census.active := by
    rw [active_census]
    exact List.mem_map_of_mem hv
  constructor
  · intro v hv w hw
    exact hmirrored.alike _ (hmem hv) _ (hmem hw)
  · intro hne
    refine ⟨(concordant_invariant.of_midway h).populated hne, ?_⟩
    intro v hv
    exact hmirrored.waiting hne _ (hmem hv)
  · exact hmirrored.single

/-- Two voices in unison, when a second note has displaced the first one. -/
def stackedPair : Engine :=
  [Event.noteOn 3 1 60.0 1.0 0, Event.noteOn 4 1 64.0 1.0 2].foldl perform
    (((idle 2 48000.0 (EventQueue.empty 8) {} .plain).stage
      { voices := 2, unison := true }).adoptAwaited.opened 8)

theorem midway_stackedPair : Midway stackedPair := by
  have hstaged :
      Reachable ((idle 2 48000.0 (EventQueue.empty 8) {} .plain).operate
        (.stage { voices := 2, unison := true })) :=
    .operate (reachableBy_idlePair _) trivial
  exact (Midway.opened hstaged 8).performAll _

/-- The first note waits, and both voices are held by the second one. -/
theorem mirrored_stackedPair :
    Midway stackedPair
      ∧ stackedPair.settings.unison = true
      ∧ stackedPair.Mirrored
      ∧ stackedPair.displaced.notes.map Event.source = [3]
      ∧ (stackedPair.bank.active.map fun v => v.owner) = [some 4, some 4] :=
  ⟨midway_stackedPair, by decide +kernel,
    mirrored_of_midway midway_stackedPair (by decide +kernel),
    by decide +kernel, by decide +kernel⟩

end Mirrors

end Engine
end Polyphony
