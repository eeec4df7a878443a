import Polyphony.Proofs.Engine.Concord
import Polyphony.Proofs.Notes.Held

/-!
# What a released note leaves behind

When a key goes up, its source should be gone: no voice that plays is held by
it, and no note of it is left in the table or on the stack.  A source may have
started several notes, and in unison one of them may wait below the other.

**Result.**
* `isRidOf_noteOff_iff`: the source is gone unless, in unison, one note of it
  sounds while another one waits; then the waiting one comes back.
-/

namespace Polyphony
namespace Engine

/-- Nothing is left of the notes of a source. -/
structure IsRidOf (e : Engine) (source : UInt32) : Prop where
  /-- No voice that plays is held by it. -/
  voices : ∀ v ∈ e.bank.active, v.heldBy source = false
  /-- No note of it is in the table. -/
  held : ∀ n ∈ e.held.notes, n.source ≠ source
  /-- No note of it waits. -/
  displaced : ∀ n ∈ e.displaced.notes, n.source ≠ source

section Releasing

variable {e : Engine} {event : Event}

/-- A released note never silences. -/
theorem silences_noteOff
    (hkind : event.kind = .noteOff) :
    e.silences event = false := by
  simp [silences, obeys, hkind]

/-- The source of a released note leaves the table. -/
theorem held_noteOff
    (hkind : event.kind = .noteOff) :
    ∀ n ∈ (e.perform event).held.notes, n.source ≠ event.source := by
  have hheld : (e.perform event).held = e.held.forget event.source := by
    have htables := congrArg Tables.held (tables_perform (silences_noteOff (e := e) hkind))
    simpa [tables, heldAfter, hkind] using htables
  intro n hn
  rw [hheld] at hn
  exact (HeldNotes.mem_notes_forget.1 hn).2

theorem displaced_noteOff
    (hkind : event.kind = .noteOff) :
    (e.perform event).displaced = e.displacedAfter event :=
  congrArg Tables.displaced (tables_perform (silences_noteOff hkind))

/-- A voice that plays after a released note took the answer to it. -/
theorem mem_active_noteOff
    (hkind : event.kind = .noteOff)
    {v : Voice}
    (hv : v ∈ (e.perform event).bank.active) :
    ∃ w ∈ e.bank.active,
      v.toTenancy = (e.noteOffAnswer event w.toTenancy).tenancy w.toTenancy := by
  rw [active_perform (silences_noteOff hkind)] at hv
  obtain ⟨id, hid, rfl⟩ := List.mem_mapIdx.1 hv
  refine ⟨e.bank.active[id], List.getElem_mem hid, ?_⟩
  rw [Answer.take_eq]
  simp [answer, hkind]

/-- After its end, a note does not hold its voice. -/
theorem heldBy_endAnswer (tn : Tenancy) (source : UInt32) :
    ((e.endAnswer event).tenancy tn).heldBy source = false := by
  unfold endAnswer
  split
  · rfl
  · rfl

/-- A displaced note that comes back holds every voice that plays. -/
theorem heldBy_revived
    (hkind : event.kind = .noteOff)
    (hunison : e.settings.unison = true)
    (hsounds : e.isSounding event.source = true)
    {note : Event}
    (htop : e.displaced.top? = some note)
    {v : Voice}
    (hv : v ∈ (e.perform event).bank.active)
    (source : UInt32) :
    v.heldBy source = (note.source == source) := by
  obtain ⟨w, _, htenancy⟩ := mem_active_noteOff hkind hv
  have hheld : v.heldBy source = v.toTenancy.heldBy source := rfl
  rw [hheld, htenancy]
  simp [noteOffAnswer, hunison, hsounds, htop, Answer.tenancy, Tenancy.heldBy]

/-- Without unison the voices of the source are released, and nothing waits. -/
theorem isRidOf_noteOff_alone
    (h : e.roster.Concordant)
    (hkind : event.kind = .noteOff)
    (hunison : e.settings.unison = false) :
    (e.perform event).IsRidOf event.source where
  voices := by
    intro v hv
    obtain ⟨w, _, htenancy⟩ := mem_active_noteOff hkind hv
    show v.toTenancy.heldBy event.source = false
    rw [htenancy]
    simp only [noteOffAnswer, hunison, if_neg Bool.false_ne_true]
    split
    case isTrue => exact heldBy_endAnswer _ _
    case isFalse hfree => simpa [Answer.tenancy] using hfree
  held := held_noteOff hkind
  displaced := by
    have hnil : e.displaced.notes = [] := h.alone hunison
    have hsame : e.displacedAfter event = e.displaced := by
      simp [displacedAfter, hkind, hunison]
    rw [displaced_noteOff hkind, hsame, hnil]
    intro n hn
    cases hn

/-- A source that does not sound in unison holds no voice, and is taken off the stack. -/
theorem isRidOf_noteOff_buried
    (h : e.roster.Concordant)
    (hkind : event.kind = .noteOff)
    (hunison : e.settings.unison = true)
    (hsilent : e.isSounding event.source = false) :
    (e.perform event).IsRidOf event.source where
  voices := by
    intro v hv
    obtain ⟨w, hw, htenancy⟩ := mem_active_noteOff hkind hv
    show v.toTenancy.heldBy event.source = false
    rw [htenancy]
    simp only [noteOffAnswer, hunison, hsilent, if_true, if_neg Bool.false_ne_true]
    show w.toTenancy.heldBy event.source = false
    -- voice zero plays as well, and all voices that play are held like it
    obtain ⟨zero, hmem, hzero⟩ := Bank.exists_voice_zero (List.ne_nil_of_mem hw)
    have hactive (u : Voice) (hu : u ∈ e.bank.active) :
        u.toTenancy.ageless ∈ e.roster.active := by
      rw [active_roster]
      exact List.mem_map_of_mem hu
    have halike := h.together hunison _ (hactive _ hw) _ (hactive _ hmem)
    have howner : (zero.owner == some event.source) = false := by
      simpa [isSounding, hzero] using hsilent
    have heldBy_zero : zero.toTenancy.ageless.heldBy event.source = false := by
      simp [Tenancy.heldBy, Tenancy.ageless, howner]
    have hheld := halike.heldBy_eq event.source
    rw [heldBy_zero] at hheld
    exact hheld
  held := held_noteOff hkind
  displaced := by
    have hforget : e.displacedAfter event = e.displaced.forget event.source := by
      simp [displacedAfter, hkind, hunison, hsilent]
    rw [displaced_noteOff hkind, hforget]
    intro n hn
    simpa using (List.mem_filter.1 hn).2

/-- A source that sounds in unison is gone if no note of it waits. -/
theorem isRidOf_noteOff_sounding
    (hkind : event.kind = .noteOff)
    (hunison : e.settings.unison = true)
    (hsounds : e.isSounding event.source = true)
    (hwaits : ∀ n ∈ e.displaced.notes, n.source ≠ event.source) :
    (e.perform event).IsRidOf event.source where
  voices := by
    intro v hv
    cases htop : e.displaced.top? with
    | some note =>
        have hmem : note ∈ e.displaced.notes := List.mem_of_head? htop
        rw [heldBy_revived hkind hunison hsounds htop hv]
        simpa using hwaits note hmem
    | none =>
        obtain ⟨w, _, htenancy⟩ := mem_active_noteOff hkind hv
        show v.toTenancy.heldBy event.source = false
        rw [htenancy]
        simp only [noteOffAnswer, hunison, hsounds, htop, if_true]
        split
        case isTrue => exact heldBy_endAnswer _ _
        case isFalse hphase =>
          have hoff : (w.phase == .held) = false := by
            simpa using hphase
          simp [Answer.tenancy, Tenancy.heldBy, hoff]
  held := held_noteOff hkind
  displaced := by
    have hpop : e.displacedAfter event = e.displaced.pop := by
      simp [displacedAfter, hkind, hunison, hsounds]
    rw [displaced_noteOff hkind, hpop]
    intro n hn
    exact hwaits n (List.mem_of_mem_tail hn)

/-- Another note of the source comes back, or goes on waiting. -/
theorem not_isRidOf_noteOff
    (h : e.roster.Concordant)
    (hkind : event.kind = .noteOff)
    (hunison : e.settings.unison = true)
    (hsounds : e.isSounding event.source = true)
    {n : Event}
    (hn : n ∈ e.displaced.notes)
    (hsource : n.source = event.source) :
    ¬ (e.perform event).IsRidOf event.source := by
  intro hrid
  cases hnotes : e.displaced.notes with
  | nil =>
      rw [hnotes] at hn
      cases hn
  | cons top rest =>
      rw [hnotes] at hn
      rcases List.mem_cons.1 hn with rfl | hrest
      · have htop : e.displaced.top? = some n := by
          simp [DisplacedNotes.top?, hnotes]
        have hpos : 0 < e.bank.count :=
          h.populated (by
            show e.displaced.notes ≠ []
            simp [hnotes])
        -- voice zero, which sounds, is among those that the note takes
        have hvoice : ∃ v, e.bank.voice? 0 = some v := by
          cases hzero : e.bank.voice? 0 with
          | some v => exact ⟨v, rfl⟩
          | none => simp [isSounding, hzero] at hsounds
        obtain ⟨v, hv⟩ := hvoice
        have hactive : ∃ w, w ∈ (e.perform event).bank.active := by
          rw [active_perform (silences_noteOff hkind)]
          have hlen : 0 < e.bank.active.length := by
            have hmem : v ∈ e.bank.active := Bank.mem_active_iff.2 ⟨0, hpos, hv⟩
            exact List.length_pos_of_mem hmem
          exact ⟨_, List.mem_mapIdx.2 ⟨0, hlen, rfl⟩⟩
        obtain ⟨w, hw⟩ := hactive
        have hheld := heldBy_revived hkind hunison hsounds htop hw event.source
        rw [hrid.voices w hw, hsource] at hheld
        simp at hheld
      · refine hrid.displaced n ?_ hsource
        have hpop : e.displacedAfter event = e.displaced.pop := by
          simp [displacedAfter, hkind, hunison, hsounds]
        rw [displaced_noteOff hkind, hpop]
        simpa [DisplacedNotes.pop, hnotes] using hrest

/--
A released note leaves nothing of its source behind, except where in unison one
note of the source sounds while another one waits.
-/
theorem isRidOf_noteOff_iff
    (h : Midway e)
    (hkind : event.kind = .noteOff) :
    (e.perform event).IsRidOf event.source
      ↔ ¬ (e.settings.unison = true
          ∧ e.isSounding event.source = true
          ∧ ∃ n ∈ e.displaced.notes, n.source = event.source) := by
  have hconcord := concordant_invariant.of_midway h
  constructor
  · rintro hrid ⟨hunison, hsounds, n, hn, hsource⟩
    exact not_isRidOf_noteOff hconcord hkind hunison hsounds hn hsource hrid
  · intro hfine
    cases hunison : e.settings.unison with
    | false => exact isRidOf_noteOff_alone hconcord hkind hunison
    | true =>
        cases hsounds : e.isSounding event.source with
        | false => exact isRidOf_noteOff_buried hconcord hkind hunison hsounds
        | true =>
            refine isRidOf_noteOff_sounding hkind hunison hsounds ?_
            intro n hn hsource
            exact hfine ⟨hunison, hsounds, n, hn, hsource⟩

/-- Two voices in unison, after one source has started two notes within a block. -/
def twicePressed : Engine :=
  ((((Engine.idle 2 48000.0 (EventQueue.empty 8) {} .plain).stage
    { voices := 2, unison := true }).adoptAwaited.opened 8).perform
      (Event.noteOn 7 1 60.0 1.0 0)).perform (Event.noteOn 7 1 64.0 1.0 1)

theorem midway_twicePressed : Midway twicePressed := by
  have hstaged :
      Reachable ((Engine.idle 2 48000.0 (EventQueue.empty 8) {} .plain).operate
        (.stage { voices := 2, unison := true })) :=
    .operate (reachableBy_idlePair _) trivial
  exact .perform (.perform (.opened hstaged 8) _) _

/-- The earlier of the two notes comes back when the source is released. -/
theorem not_isRidOf_twicePressed :
    Midway twicePressed
      ∧ (Event.noteOff 7 1 2).kind = .noteOff
      ∧ ¬ (twicePressed.perform (Event.noteOff 7 1 2)).IsRidOf 7 := by
  refine ⟨midway_twicePressed, rfl, ?_⟩
  intro hrid
  refine (isRidOf_noteOff_iff midway_twicePressed rfl).1 hrid ⟨?_, ?_, ?_⟩
  · decide +kernel
  · decide +kernel
  · decide +kernel

end Releasing

end Engine
end Polyphony
