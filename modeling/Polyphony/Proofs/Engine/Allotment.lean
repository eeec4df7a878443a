import Polyphony.Proofs.Engine.Moments
import Polyphony.Proofs.Engine.Ownership
import Polyphony.Proofs.Voice.Choosing

/-!
# What a new note does without unison

Without unison a new note is put into the table of held notes and gets a voice of its
own.  If the table is full, or no voice plays notes, nothing happens at all.

**Tables.**  A table has its 32 slots whatever happens, and it is empty as long as no
voice plays notes; so a note that is put in and taken out again leaves no trace.

**Results.**
* `answer_of_allots?`: what a new note asks of each voice.
* `perform_of_allots?`: which voice and which slot a new note gets.
* `perform_newNote`: all that a new note changes, and when it changes nothing.
-/

namespace Polyphony

namespace HeldNotes

section Slots

/-- A slot is the lowest one that is free. -/
structure IsLowestFree (h : HeldNotes) (slot : Nat) : Prop where
  free : h.slots[slot]? = some none
  lowest : ∀ i, i < slot → ∃ n, h.slots[i]? = some (some n)

theorem isLowestFree_of_freeSlot?
    {h : HeldNotes} {slot : Nat}
    (hslot : h.freeSlot? = some slot) :
    h.IsLowestFree slot := by
  obtain ⟨hlt, hfree, hbefore⟩ := List.findIdx?_eq_some_iff_getElem.1 hslot
  constructor
  · rw [List.getElem?_eq_getElem hlt, Option.isNone_iff_eq_none.1 hfree]
  · intro i hi
    have htaken := hbefore i hi
    have hlt' : i < h.slots.length := hi.trans hlt
    rw [List.getElem?_eq_getElem hlt']
    cases hget : h.slots[i] with
    | none => simp [hget] at htaken
    | some n => exact ⟨n, rfl⟩

/-- A note that is put in and taken out again leaves no trace. -/
theorem forget_put_self
    {h : HeldNotes} {slot : Nat}
    (hslot : h.freeSlot? = some slot)
    (e : Event) :
    (h.put slot e).forget e.source = h.forget e.source := by
  have hfree := (isLowestFree_of_freeSlot? hslot).free
  unfold put forget
  congr 1
  apply List.ext_getElem?
  intro i
  rw [List.getElem?_map, List.getElem?_map]
  by_cases hi : slot = i
  · subst hi
    have hlt := (List.getElem?_eq_some_iff.1 hfree).1
    rw [List.getElem?_set_self hlt, hfree]
    simp [Option.filter]
  · rw [List.getElem?_set_ne hi]

theorem forget_empty (source : UInt32) :
    HeldNotes.empty.forget source = .empty := by
  rfl

end Slots

end HeldNotes

namespace Roster

/-- What holds of the table of held notes whatever happens. -/
structure Tabled (r : Roster) : Prop where
  sized : r.held.slots.length = maxHeldNotes
  vacant : r.count = 0 → r.held = .empty

end Roster

namespace Engine

section Tables

variable {e : Engine} {event : Event}

theorem slots_heldAfter
    (h : e.held.slots.length = maxHeldNotes) :
    (e.heldAfter event).slots.length = maxHeldNotes := by
  unfold heldAfter
  split
  · split
    · exact h
    · split
      · split
        · exact h
        · split <;> simpa using h
      · split <;> simpa using h
  · simpa using h
  · split
    · rfl
    · exact h
  · exact h

/-- Where no voice plays notes, the table stays empty. -/
theorem heldAfter_of_count
    (h : e.held = .empty)
    (hcount : e.bank.count = 0) :
    e.heldAfter event = .empty := by
  have hchoose : e.choose? event = none := by
    unfold choose? Bank.choose?
    rw [if_pos hcount]
  unfold heldAfter
  split
  · split
    · exact h
    · rename_i slot hslot
      split
      · exact h
      · rw [hchoose, Option.isSome_none, if_neg Bool.false_ne_true,
          HeldNotes.forget_put_self hslot, h]
        rfl
  · rw [h]
    rfl
  · split
    · rfl
    · exact h
  · exact h

theorem tabled_silence (e : Engine) :
    e.silence.roster.Tabled :=
  ⟨rfl, fun _ => rfl⟩

theorem tabled_perform
    (h : e.roster.Tabled)
    (event : Event) :
    (e.perform event).roster.Tabled := by
  cases hsilent : e.silences event with
  | true =>
      rw [perform_of_silences hsilent]
      exact tabled_silence e
  | false =>
      have hheld : (e.perform event).held = e.heldAfter event :=
        congrArg Tables.held (tables_perform hsilent)
      have hcount : (e.perform event).bank.count = e.bank.count :=
        congrArg Background.count (background_perform e event)
      constructor
      · show (e.perform event).held.slots.length = maxHeldNotes
        rw [hheld]
        exact slots_heldAfter h.sized
      · intro hnone
        have hzero : e.bank.count = 0 := hcount.symm.trans hnone
        show (e.perform event).held = .empty
        rw [hheld]
        exact heldAfter_of_count (h.vacant hzero) hzero

theorem tabled_adopt
    (hconcord : e.roster.Concordant)
    (h : e.roster.Tabled)
    (next : Settings) :
    (e.adopt next).roster.Tabled := by
  cases hchange : changesNotes e.settings (e.admitted next) with
  | true =>
      unfold adopt
      dsimp only
      rw [hchange, if_pos rfl]
      exact tabled_silence _
  | false =>
      rw [roster_adopt hconcord.counted hchange]
      exact ⟨h.sized, h.vacant⟩

/-- The tables of every engine are as they should be, whatever a host does. -/
theorem tabled_invariant : RosterInvariant fun r => r.Concordant ∧ r.Tabled where
  idle := fun capacity rate queue t library =>
    ⟨concordant_invariant.idle capacity rate queue t library, rfl, fun _ => rfl⟩
  perform := fun e event h =>
    ⟨concordant_invariant.perform e event h.1, tabled_perform h.2 event⟩
  silence := fun e h => ⟨concordant_invariant.silence e h.1, tabled_silence e⟩
  reset := fun e h => ⟨concordant_invariant.reset e h.1, rfl, fun _ => rfl⟩
  adopt := fun e next h =>
    ⟨concordant_invariant.adopt e next h.1, tabled_adopt h.1 h.2 next⟩

theorem Attained.tabled
    (h : Attained e) :
    e.roster.Tabled :=
  (tabled_invariant.of_attained h).2

end Tables

section Allotting

variable {e : Engine} {event : Event}

/-- The voice that an event gets, if it is a new note that gets a voice of its own. -/
def allots? (e : Engine) (event : Event) : Option Choice :=
  if event.kind = .noteOn ∧ e.settings.unison = false ∧ e.held.freeSlot?.isSome then
    e.choose? event
  else none

/-- What gets a voice is a new note without unison, for which there is room in the table. -/
theorem of_allots?
    {choice : Choice}
    (h : e.allots? event = some choice) :
    event.kind = .noteOn ∧ e.settings.unison = false ∧ e.held.freeSlot?.isSome = true := by
  unfold allots? at h
  split at h
  case isTrue hnew => exact hnew
  case isFalse => cases h

theorem choose?_of_allots?
    {choice : Choice}
    (h : e.allots? event = some choice) :
    e.choose? event = some choice := by
  unfold allots? at h
  split at h
  case isTrue => exact h
  case isFalse => cases h

/-- What a new note asks of each voice: one starts or is stolen, and all others rest. -/
theorem answer_of_allots?
    (hkind : event.kind = .noteOn)
    (hunison : e.settings.unison = false)
    (id : Nat) (tn : Tenancy) :
    e.answer event id tn =
      match e.allots? event with
      | some (.free chosen) => if id = chosen then .start event else .rest
      | some (.stolen chosen) => if id = chosen then .steal event true else .rest
      | none => .rest := by
  unfold answer noteOnAnswer allots?
  rw [hkind, hunison]
  cases hslot : e.held.freeSlot? with
  | none => rfl
  | some slot =>
      have hroom : (some slot).isSome = true := rfl
      simp only [hroom, and_self, if_true]
      rfl

end Allotting

end Engine

namespace Voice

/-- The voice that has got a new note: a free one starts it, and any other one is stolen. -/
def playing (v : Voice) (event : Event) (t : Temperament) : Voice :=
  if v.isOff then v.start event t else v.steal event t true

/-- A voice is held by the key of a note that has just begun. -/
structure PlaysAnew (v : Voice) (event : Event) : Prop where
  held : v.phase = .held
  owner : v.owner = some event.source
  channel : v.channel = event.channel
  note : v.note = event.first
  age : v.age = 0
  event : v.event = event

/-- However a voice has got a new note, it plays the note anew. -/
theorem playsAnew_playing (v : Voice) (event : Event) (t : Temperament) :
    (v.playing event t).PlaysAnew event := by
  unfold playing
  split
  · exact ⟨rfl, rfl, rfl, rfl, rfl, rfl⟩
  · exact ⟨rfl, rfl, rfl, rfl, rfl, rfl⟩

end Voice

namespace Engine

section NewNotes

variable {e : Engine} {event : Event}

/-- The engine after a new note has got a slot of the table, and the voice `v` with a number. -/
def withNote (e : Engine) (event : Event) (slot id : Nat) (v : Voice) : Engine :=
  { e with
    held := e.held.put slot event
    bank :=
      { e.bank with
        voices := e.bank.voices.set id (v.playing event e.temperament)
        rotation := if v.isOff then e.bank.rotation + 1 else e.bank.rotation } }

/-- Doing something to a voice with a number puts what it becomes into its place. -/
theorem modify_eq_set
    {voices : List Voice} {id : Nat} {v : Voice}
    (h : voices[id]? = some v)
    (f : Voice → Voice) :
    voices.modify id f = voices.set id (f v) := by
  rw [List.modify_eq_set_getElem?, h]
  rfl

theorem perform_newNote_eq
    (hkind : event.kind = .noteOn)
    (hunison : e.settings.unison = false) :
    e.perform event = e.startNote event := by
  unfold perform
  rw [hkind, hunison]
  rfl

/-- A new note that finds a slot and a voice gets them, and nothing else changes. -/
theorem startNote_of_choose?
    {slot id : Nat} {v : Voice}
    (hslot : e.held.freeSlot? = some slot)
    (hchoose : e.choose? event = some (if v.isOff then .free id else .stolen id))
    (hv : e.bank.voices[id]? = some v) :
    e.startNote event = e.withNote event slot id v := by
  unfold startNote withNote Voice.playing
  rw [hslot, hchoose]
  cases v.isOff with
  | true =>
      unfold playOn Bank.modify Bank.afterChoice Bank.turn
      simp [modify_eq_set hv]
  | false =>
      unfold playOn Bank.modify Bank.afterChoice
      simp [modify_eq_set hv]

/-- Where no voice plays notes, a new note is put into the table and taken out again. -/
theorem startNote_of_count
    (h : e.roster.Tabled)
    (hcount : e.bank.count = 0) :
    e.startNote event = e := by
  have hempty : e.held = .empty := h.vacant hcount
  have hchoose : e.choose? event = none := if_pos hcount
  unfold startNote
  cases hslot : e.held.freeSlot? with
  | none => rfl
  | some slot =>
      rw [hchoose]
      dsimp only
      rw [HeldNotes.forget_put_self hslot, hempty, HeldNotes.forget_empty, ← hempty]

/-- An event that gets a voice gets the one that deserves it, and the lowest free slot. -/
theorem perform_of_allots?
    {choice : Choice}
    (hconcord : e.roster.Concordant)
    (hallots : e.allots? event = some choice) :
    ∃ slot v, e.held.IsLowestFree slot
      ∧ e.bank.Deserves event.first e.settings.rotate choice.id v
      ∧ (choice = if v.isOff then .free choice.id else .stolen choice.id)
      ∧ e.perform event = e.withNote event slot choice.id v := by
  obtain ⟨hkind, hunison, hroom⟩ := of_allots? hallots
  obtain ⟨slot, hslot⟩ := Option.isSome_iff_exists.1 hroom
  have hchoose := choose?_of_allots? hallots
  obtain ⟨v, hdeserves, hchoice⟩ := Bank.deserves_of_choose? hconcord.fits_voices hchoose
  refine ⟨slot, v, HeldNotes.isLowestFree_of_freeSlot? hslot, hdeserves, hchoice, ?_⟩
  rw [perform_newNote_eq hkind hunison]
  exact startNote_of_choose? hslot (hchoose.trans (congrArg some hchoice)) hdeserves.voice

/-- The voice that a new note has got plays it. -/
theorem voice?_withNote
    {slot id : Nat} {v : Voice}
    (hv : e.bank.voice? id = some v) :
    (e.withNote event slot id v).bank.voice? id = some (v.playing event e.temperament) := by
  obtain ⟨hlt, _⟩ := List.getElem?_eq_some_iff.1 hv
  exact List.getElem?_set_self hlt

/--
Without unison a new note changes nothing if the table is full or no voice plays notes.
Else it is put into the lowest free slot, and the voice that deserves it, and no other
one, plays it anew.
-/
theorem perform_newNote
    (h : Attained e)
    (hkind : event.kind = .noteOn)
    (hunison : e.settings.unison = false) :
    (e.held.length = maxHeldNotes ∨ e.bank.count = 0 → e.perform event = e)
      ∧ (e.held.length ≠ maxHeldNotes → e.bank.count ≠ 0 →
          ∃ slot id v, e.held.IsLowestFree slot
            ∧ e.bank.Deserves event.first e.settings.rotate id v
            ∧ (v.playing event e.temperament).PlaysAnew event
            ∧ e.perform event = e.withNote event slot id v) := by
  have hsized : e.held.slots.length = maxHeldNotes := h.tabled.sized
  have hfull := HeldNotes.freeSlot?_eq_none_iff e.held
  rw [hsized] at hfull
  constructor
  · rw [perform_newNote_eq hkind hunison]
    rintro (hlength | hcount)
    · unfold startNote
      rw [hfull.2 hlength]
    · exact startNote_of_count h.tabled hcount
  · intro hlength hcount
    have hroom : e.held.freeSlot?.isSome = true :=
      Option.isSome_iff_ne_none.2 fun hnone => hlength (hfull.1 hnone)
    obtain ⟨choice, hchoose⟩ :=
      Option.ne_none_iff_exists'.1 fun hnone => hcount (Bank.count_of_choose?_eq_none hnone)
    have hallots : e.allots? event = some choice :=
      (if_pos ⟨hkind, hunison, hroom⟩).trans hchoose
    obtain ⟨slot, v, hlowest, hdeserves, _, hperform⟩ :=
      perform_of_allots? h.concordant hallots
    exact ⟨slot, choice.id, v, hlowest, hdeserves,
      Voice.playsAnew_playing v event e.temperament, hperform⟩

/-- A note for which no voice of the pair is free. -/
def thirdNote : Event :=
  Event.noteOn 5 1 67.0 1.0 3

/-- A third note takes the voice that the pedal keeps, and a slot that has been given back. -/
theorem perform_newNote_sustainedPair :
    Attained sustainedPair
      ∧ sustainedPair.settings.unison = false
      ∧ sustainedPair.held.length ≠ maxHeldNotes
      ∧ sustainedPair.bank.count ≠ 0
      ∧ (∃ slot id v, sustainedPair.held.IsLowestFree slot
          ∧ sustainedPair.bank.Deserves thirdNote.first sustainedPair.settings.rotate id v
          ∧ (v.playing thirdNote sustainedPair.temperament).PlaysAnew thirdNote
          ∧ sustainedPair.perform thirdNote = sustainedPair.withNote thirdNote slot id v)
      ∧ (sustainedPair.perform thirdNote).bank.voices.map (fun v => (v.phase, v.owner))
          = [(.held, some 5), (.held, some 4)] := by
  have hattained : Attained sustainedPair := midway_sustainedPair.attained
  have hunison : sustainedPair.settings.unison = false := by decide +kernel
  have hroom : sustainedPair.held.length ≠ maxHeldNotes := by decide +kernel
  have hcount : sustainedPair.bank.count ≠ 0 := by decide +kernel
  exact ⟨hattained, hunison, hroom, hcount,
    (perform_newNote hattained rfl hunison).2 hroom hcount, by decide +kernel⟩

end NewNotes

end Engine
end Polyphony
