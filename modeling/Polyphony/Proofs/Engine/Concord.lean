import Polyphony.Proofs.Engine.Reachable
import Polyphony.Proofs.Engine.Tables

/-!
# Concord among voices in unison

In unison all voices that play are held alike, and without unison no note waits.
This is kept by everything that happens to an engine.

**Result.**
* `concordant_invariant`: concord holds of every engine that a host reaches.
-/

namespace Polyphony

namespace Tenancy

/-- Two voices are held alike: they are in one phase and belong to one source. -/
def Alike (a b : Tenancy) : Prop :=
  a.phase = b.phase ∧ a.owner = b.owner

theorem Alike.heldBy_eq
    {a b : Tenancy}
    (h : a.Alike b)
    (source : UInt32) :
    a.heldBy source = b.heldBy source := by
  unfold heldBy
  rw [h.1, h.2]

/-- The same new tenancy for both. -/
theorem Alike.refl (a : Tenancy) : a.Alike a :=
  ⟨rfl, rfl⟩

end Tenancy

namespace Roster

/-- What holds of rosters whatever happens. -/
structure Concordant (r : Roster) : Prop where
  /-- As many voices play notes as the settings say. -/
  counted : r.count = r.settings.voices
  /-- No more voices play notes than there are. -/
  fits : r.count ≤ r.tenancies.length
  /-- Without unison no note waits. -/
  alone : r.settings.unison = false → r.displaced.notes = []
  /-- Where a note waits, voices play. -/
  populated : r.displaced.notes ≠ [] → 0 < r.count
  /-- In unison the voices that play are held alike. -/
  together : r.settings.unison = true → ∀ a ∈ r.active, ∀ b ∈ r.active, a.Alike b

end Roster

theorem Roster.Concordant.fits_voices
    {e : Engine}
    (h : e.roster.Concordant) :
    e.bank.count ≤ e.bank.voices.length := by
  have hfits : e.bank.count ≤ (e.bank.voices.map fun v => v.toTenancy.ageless).length := h.fits
  rwa [List.length_map] at hfits

namespace Engine

section Concord

variable {e : Engine} {event : Event}

/-- In unison, voices that are held alike get answers that leave them alike. -/
theorem alike_answer
    (hunison : e.settings.unison = true)
    {a b : Tenancy}
    (h : a.Alike b)
    (i j : Nat) :
    ((e.answer event i a).tenancy a).Alike ((e.answer event j b).tenancy b) := by
  have hheld := h.heldBy_eq event.source
  obtain ⟨hphase, howner⟩ := h
  cases hkind : event.kind with
  | noteOn =>
      simp only [answer, hkind, noteOnAnswer, hunison]
      split
      · exact ⟨hphase, howner⟩
      · exact ⟨rfl, rfl⟩
  | noteOff =>
      simp only [answer, hkind, noteOffAnswer, hunison, if_true, hphase]
      split
      · split
        · exact ⟨rfl, rfl⟩
        · split
          · unfold endAnswer
            split
            · exact ⟨rfl, howner⟩
            · exact ⟨rfl, rfl⟩
          · exact ⟨hphase, howner⟩
      · exact ⟨hphase, howner⟩
  | noteUpdate =>
      simp only [answer, hkind, hheld]
      split
      · exact ⟨hphase, howner⟩
      · exact ⟨hphase, howner⟩
  | sustain =>
      simp only [answer, hkind, pedalAnswer, hphase]
      split
      · exact ⟨hphase, howner⟩
      · split
        · exact ⟨rfl, rfl⟩
        · exact ⟨hphase, howner⟩
  | controller =>
      simp only [answer, hkind, controllerAnswer, hphase, hheld]
      split
      · split
        · exact ⟨rfl, rfl⟩
        · exact ⟨hphase, howner⟩
      · have hmod (slot : Option Nat) :
            ((Answer.moveMod event slot).tenancy a).Alike
              ((Answer.moveMod event slot).tenancy b) := by
          rw [Answer.tenancy_moveMod, Answer.tenancy_moveMod]
          exact ⟨hphase, howner⟩
        split
        · split
          · exact ⟨hphase, howner⟩
          · exact hmod _
        · split
          · exact hmod _
          · exact ⟨hphase, howner⟩
        · exact ⟨hphase, howner⟩
  | pitchBend =>
      simp only [answer, hkind, bendAnswer]
      split
      · exact ⟨hphase, howner⟩
      · exact ⟨hphase, howner⟩
      · exact ⟨hphase, howner⟩
  | notePressure =>
      simp only [answer, hkind, pressNoteAnswer, howner]
      split
      · exact ⟨hphase, howner⟩
      · exact ⟨hphase, howner⟩
  | channelPressure =>
      simp only [answer, hkind, pressChannelAnswer, hheld]
      split
      · exact ⟨hphase, howner⟩
      · split
        · exact ⟨hphase, howner⟩
        · exact ⟨hphase, howner⟩
      · exact ⟨hphase, howner⟩
  | null =>
      simp only [answer, hkind]
      exact ⟨hphase, howner⟩

/-- Silence brings concord. -/
theorem concordant_silence
    (hcount : e.bank.count = e.settings.voices)
    (hfits : e.bank.count ≤ e.bank.voices.length) :
    e.silence.roster.Concordant where
  counted := hcount
  fits := by
    simpa [roster, silence, Bank.mapAll, Bank.rewind] using hfits
  alone := fun _ => rfl
  populated := fun h => absurd rfl h
  together := by
    have hvacant : ∀ a ∈ e.silence.roster.active, a = {} := by
      intro a ha
      have hmem := List.mem_of_mem_take ha
      obtain ⟨v, hv, rfl⟩ := List.mem_map.1 hmem
      obtain ⟨w, _, rfl⟩ := List.mem_map.1 hv
      rfl
    intro _ a ha b hb
    rw [hvacant a ha, hvacant b hb]
    exact Tenancy.Alike.refl _

/-- Where a note waits after an event, one waited before, or unison displaced one. -/
theorem displacedAfter_ne_nil
    (h : (e.displacedAfter event).notes ≠ []) :
    e.displaced.notes ≠ [] ∨ (e.settings.unison = true ∧ 0 < e.bank.count) := by
  by_cases hnil : e.displaced.notes = []
  · right
    unfold displacedAfter at h
    split at h
    · split at h
      · rename_i hunison
        exact ⟨hunison.1, by omega⟩
      · exact absurd hnil h
    · have hpop : e.displaced.pop.notes = [] := by
        simp [DisplacedNotes.pop, hnil]
      have hforget : (e.displaced.forget event.source).notes = [] := by
        simp [DisplacedNotes.forget, hnil]
      split at h
      · split at h
        · exact absurd hpop h
        · exact absurd hforget h
      · exact absurd hnil h
    · split at h
      · exact absurd rfl h
      · exact absurd hnil h
    · exact absurd hnil h
  · exact Or.inl hnil

/-- Events keep concord. -/
theorem concordant_perform
    (h : e.roster.Concordant) :
    (e.perform event).roster.Concordant := by
  have hback := background_perform e event
  have hsettings : (e.perform event).settings = e.settings :=
    congrArg Background.settings hback
  have hcount : (e.perform event).bank.count = e.bank.count :=
    congrArg Background.count hback
  cases hsilent : e.silences event with
  | true =>
      rw [perform_of_silences hsilent]
      exact concordant_silence h.counted (h.fits_voices)
  | false =>
      have htables := tables_perform hsilent
      have hdisplaced : (e.perform event).displaced = e.displacedAfter event :=
        congrArg Tables.displaced htables
      constructor
      · show (e.perform event).bank.count = (e.perform event).settings.voices
        rw [hcount, hsettings]
        exact h.counted
      · have hcapacity : (e.perform event).bank.voices.length = e.bank.voices.length :=
          congrArg Background.capacity hback
        show (e.perform event).bank.count ≤ (List.map _ (e.perform event).bank.voices).length
        rw [List.length_map, hcount, hcapacity]
        exact h.fits_voices
      · intro hunison
        have hunison' : e.settings.unison = false := by
          rw [← hsettings]
          exact hunison
        have hnil := h.alone hunison'
        show (e.perform event).displaced.notes = []
        rw [hdisplaced]
        by_contra hne
        rcases displacedAfter_ne_nil hne with hwaits | ⟨hon, _⟩
        · exact hwaits hnil
        · rw [hunison'] at hon
          cases hon
      · intro hne
        show 0 < (e.perform event).bank.count
        rw [hcount]
        have hne' : (e.displacedAfter event).notes ≠ [] := by
          rw [← hdisplaced]
          exact hne
        rcases displacedAfter_ne_nil hne' with hwaits | ⟨_, hpos⟩
        · exact h.populated hwaits
        · exact hpos
      · intro hunison a ha b hb
        have hunison' : e.settings.unison = true := by
          rw [← hsettings]
          exact hunison
        obtain ⟨i, v, hv, rfl⟩ := mem_active_roster_perform hsilent ha
        obtain ⟨j, w, hw, rfl⟩ := mem_active_roster_perform hsilent hb
        have hmem {u : Voice} (hu : u ∈ e.bank.active) :
            u.toTenancy.ageless ∈ e.roster.active := by
          rw [active_roster]
          exact List.mem_map_of_mem hu
        have halike : v.toTenancy.ageless.Alike w.toTenancy.ageless :=
          h.together hunison' _ (hmem hv) _ (hmem hw)
        have halike' : v.toTenancy.Alike w.toTenancy := halike
        exact alike_answer hunison' halike' i j

/-- No more voices are admitted than there are. -/
theorem voices_admitted_le (e : Engine) (next : Settings) :
    (e.admitted next).voices ≤ e.capacity :=
  Nat.min_le_right _ _

/-- New settings keep concord: a change of voices or unison silences. -/
theorem concordant_adopt
    (next : Settings)
    (h : e.roster.Concordant) :
    (e.adopt next).roster.Concordant := by
  have hle : (e.admitted next).voices ≤ e.bank.capacity := voices_admitted_le e next
  have hcount : min (e.admitted next).voices e.bank.capacity = (e.admitted next).voices :=
    Nat.min_eq_left hle
  unfold adopt
  dsimp only
  split
  case isTrue =>
    have hfits : min (e.admitted next).voices e.bank.capacity ≤ e.bank.voices.length :=
      Nat.min_le_right _ _
    refine concordant_silence hcount ?_
    simpa [distributeGlides, Bank.mapAll, Bank.withCount] using hfits
  case isFalse hchange =>
    rw [roster_distributeGlides]
    have hsame : (e.admitted next).voices = e.settings.voices
        ∧ (e.admitted next).unison = e.settings.unison := by
      simpa [changesNotes] using hchange
    have hcounted : e.bank.count = e.settings.voices := h.counted
    have hcount' : min (e.admitted next).voices e.bank.capacity = e.bank.count := by
      rw [hcount, hsame.1, hcounted]
    constructor
    · exact hcount
    · show min (e.admitted next).voices e.bank.capacity ≤ e.roster.tenancies.length
      rw [hcount']
      exact h.fits
    · intro hunison
      have hunison' : e.settings.unison = false := by
        rw [← hsame.2]
        exact hunison
      exact h.alone hunison'
    · intro hne
      show 0 < min (e.admitted next).voices e.bank.capacity
      rw [hcount']
      exact h.populated hne
    · intro hunison a ha b hb
      have hunison' : e.settings.unison = true := by
        rw [← hsame.2]
        exact hunison
      have hactive (c : Tenancy)
          (hc : c ∈ (e.roster.tenancies.take
            (min (e.admitted next).voices e.bank.capacity))) :
          c ∈ e.roster.active := by
        rw [hcount'] at hc
        exact hc
      exact h.together hunison' a (hactive a ha) b (hactive b hb)

/-- Concord holds of every engine, whatever a host does. -/
theorem concordant_invariant : RosterInvariant Roster.Concordant where
  idle := by
    intro capacity rate queue t library
    have hactive : (Engine.idle capacity rate queue t library).roster.active = [] := by
      rfl
    exact
      { counted := rfl
        fits := Nat.zero_le _
        alone := fun _ => rfl
        populated := fun h => absurd rfl h
        together := fun _ a ha => by
          rw [hactive] at ha
          cases ha }
  perform := fun _ _ h => concordant_perform h
  silence := fun _ h => concordant_silence h.counted h.fits_voices
  reset := fun _ h =>
    have hsilence := concordant_silence h.counted h.fits_voices
    { counted := hsilence.counted
      fits := hsilence.fits
      alone := fun _ => rfl
      populated := fun hne => absurd rfl hne
      together := hsilence.together }
  adopt := fun _ next h => concordant_adopt next h

end Concord

end Engine
end Polyphony
