import Polyphony.Proofs.Engine.Lifecycle

/-!
# Where a touch began

A touch that moves tells the first modulation how far it has gone in y since it began.
The voice remembers for this where its touch began.

**Origin.**  Only a voice that is free remembers where a new touch begins.  One that is
stolen goes on from where the touch began that found it free, and as long as it is not
off nothing else changes this.

**Results.**
* `originY_run`: while a voice is held without a break, its origin stays.
* `move_of_heldThroughout`: how far a touch is taken to have gone, whatever has happened since
  it got its voice.
-/

namespace Polyphony

namespace Ramp

/-- A goal can be told from the ramp for which it has been scheduled. -/
theorem schedule_inj
    (r : Ramp) (offset : Nat) {a b : Float32} :
    r.schedule a offset = r.schedule b offset ↔ a = b := by
  constructor
  · intro h
    have hpending : insertChange r.pending { value := a, offset }
        = insertChange r.pending { value := b, offset } := congrArg Ramp.pending h
    have hlast := getLast?_insertChange r.pending { value := a, offset }
    rw [hpending, getLast?_insertChange] at hlast
    exact (Option.some.inj hlast).symm
  · rintro rfl
    rfl

end Ramp

namespace Voice

/-- Where the touch of a new note is taken to begin, by the voice that gets it. -/
def originFor (v : Voice) (on : Event) : Float32 :=
  if v.isOff then on.fourth else v.originY

end Voice

namespace Engine

section Origins

variable {e : Engine} {id : Nat} {tn : Tenancy} {m : Moment}

/-- Unless all notes end, a voice that is not off keeps its origin. -/
theorem originY_tenancyAfter
    (h : Attained e)
    (hunison : e.settings.unison = false)
    (hid : id < e.bank.count)
    (htn : e.tenancy? id = some tn)
    (hbusy : tn.phase ≠ .off)
    (hclear : e.clears m = false) :
    (e.tenancyAfter m id tn).originY = tn.originY := by
  cases hgoverns : m.governs with
  | false =>
      have hsame : (e.tenancyAfter m id tn).ageless.originY = tn.ageless.originY :=
        congrArg Tenancy.originY (ageless_tenancyAfter hclear hgoverns)
      exact hsame
  | true =>
      obtain ⟨event, rfl, hon | hoff | hsustain⟩ := Moment.exists_of_governs hgoverns
      · -- the one answer that sets the origin is for a voice that is off
        rw [tenancyAfter_noteOn hunison hid hon]
        split
        case isTrue hfree =>
          have hchoice := isOff_of_allots? h.concordant hfree htn
          rw [if_neg hbusy] at hchoice
          cases hchoice
        case isFalse => split <;> rfl
      · rw [tenancyAfter_noteOff hunison hid hoff]
        unfold endAnswer
        split
        · split <;> rfl
        · rfl
      · rw [tenancyAfter_sustain hid hsustain]
        unfold pedalAnswer
        split
        · rfl
        · split <;> rfl

/-- Whether the key of `source` holds the voice with a number down. -/
def isHeldBy (e : Engine) (id : Nat) (source : UInt32) : Bool :=
  (e.tenancy? id).any fun tn => tn.heldBy source

/-- The key of `source` holds a voice down now, and after each of the moments of a run. -/
def HeldThroughout (e : Engine) (id : Nat) (source : UInt32) : List Moment → Prop
  | [] => e.isHeldBy id source = true
  | m :: moments => e.isHeldBy id source = true ∧ (e.after m).HeldThroughout id source moments

theorem HeldThroughout.now
    {source : UInt32} {moments : List Moment}
    (h : e.HeldThroughout id source moments)
    (htn : e.tenancy? id = some tn) :
    tn.heldBy source = true := by
  have hheld : e.isHeldBy id source = true := by
    cases moments with
    | nil => exact h
    | cons m moments => exact h.1
  unfold isHeldBy at hheld
  rwa [htn] at hheld

theorem phase_of_heldBy
    {source : UInt32}
    (h : tn.heldBy source = true) :
    tn.phase = .held := by
  simp only [Tenancy.heldBy, Bool.and_eq_true, beq_iff_eq] at h
  exact h.1

/-- While a voice is held without a break, it keeps its origin, and goes on to play notes. -/
theorem originY_run
    {source : UInt32} {moments : List Moment}
    (h : Attained e)
    (hunison : e.settings.unison = false)
    (hid : id < e.bank.count)
    (htn : e.tenancy? id = some tn)
    (hheld : e.HeldThroughout id source moments) :
    ∃ last, (e.run moments).tenancy? id = some last
      ∧ last.heldBy source = true ∧ last.originY = tn.originY
      ∧ id < (e.run moments).bank.count := by
  induction moments generalizing e tn with
  | nil => exact ⟨tn, htn, hheld.now htn, rfl, hid⟩
  | cons m moments ih =>
      have hbusy : tn.phase ≠ .off := by
        rw [phase_of_heldBy (hheld.now htn)]
        exact Phase.noConfusion
      have hnext : (e.after m).tenancy? id = some (e.tenancyAfter m id tn) := by
        rw [tenancy?_after, htn]
        rfl
      have hclear : e.clears m = false := by
        rw [Bool.eq_false_iff]
        intro hclear
        have hvacant := (alike_vacant_of_clears (h.owned htn) hid hclear).1
        rw [phase_of_heldBy (hheld.2.now hnext)] at hvacant
        cases hvacant
      obtain ⟨hsame, hcount⟩ := regime_after h.concordant.counted hclear
      have hkept := originY_tenancyAfter h hunison hid htn hbusy hclear
      obtain ⟨last, hlast, hlastHeld, horigin, hplays⟩ :=
        ih (h.after m) (hsame.trans hunison) (hid.trans_eq hcount.symm) hnext hheld.2
      exact ⟨last, hlast, hlastHeld, horigin.trans hkept, hplays⟩

end Origins

section Moves

variable {e : Engine} {on update : Event} {choice : Choice} {v : Voice}

theorem originY_playing (v : Voice) (on : Event) (t : Temperament) :
    (v.playing on t).originY = v.originFor on := by
  unfold Voice.playing Voice.originFor
  split
  · rfl
  · rfl

/-- The voice that has got a new note takes its touch to begin at a place of its own. -/
theorem originY_of_allots?
    (hconcord : e.roster.Concordant)
    (hallots : e.allots? on = some choice)
    (hv : e.bank.voice? choice.id = some v) :
    ∃ tn, (e.perform on).tenancy? choice.id = some tn ∧ tn.originY = v.originFor on := by
  obtain ⟨slot, chosen, _, hdeserves, _, hperform⟩ := perform_of_allots? hconcord hallots
  obtain rfl : chosen = v := Option.some.inj (hdeserves.voice.symm.trans hv)
  refine ⟨(chosen.playing on e.temperament).toTenancy, ?_, originY_playing chosen on _⟩
  rw [hperform]
  exact congrArg (Option.map Voice.toTenancy) (voice?_withNote hv)

/-- A touch that moves is followed by the voices that its key holds. -/
theorem voice?_noteUpdate
    {id : Nat} {w : Voice}
    (hkind : update.kind = .noteUpdate)
    (hid : id < e.bank.count)
    (hw : e.bank.voice? id = some w)
    (hheld : w.toTenancy.heldBy update.source = true) :
    (e.perform update).bank.voice? id = some (w.move update e.temperament) := by
  have hsilent : e.silences update = false := by
    rw [Bool.eq_false_iff]
    intro hsilent
    rw [kind_of_obeys hsilent] at hkind
    cases hkind
  have hanswer : e.answer update id w.toTenancy = .move update := by
    simp [answer, hkind, hheld]
  have hget : e.bank.voices[id]? = some w := hw
  show (e.perform update).bank.voices[id]? = _
  rw [voices_perform hsilent, answered, Bank.getElem?_mapActiveIdx, hget, Option.map_some,
    if_pos hid, hanswer]
  rfl

/--
However a touch has got its voice, and whatever has happened while the voice was held, a
move of the touch tells the first modulation how far it is from where the voice takes it
to have begun.  This is how far it is from where it began if the voice was free; if the
voice was stolen it is so only if the two differences happen to be the same.
-/
theorem move_of_heldThroughout
    {moments : List Moment}
    (h : Attained e)
    (hallots : e.allots? on = some choice)
    (hv : e.bank.voice? choice.id = some v)
    (hheld : (e.perform on).HeldThroughout choice.id on.source moments)
    (hkind : update.kind = .noteUpdate)
    (hsource : update.source = on.source) :
    ∃ w x, ((e.perform on).run moments).bank.voice? choice.id = some w
      ∧ (((e.perform on).run moments).perform update).bank.voice? choice.id = some x
      ∧ x.mod1 = w.mod1.schedule (update.fourth - v.originFor on) update.time
      ∧ (x.mod1 = w.mod1.schedule (update.fourth - on.fourth) update.time ↔
          v.isOff = true ∨ update.fourth - v.originY = update.fourth - on.fourth) := by
  obtain ⟨hon, hunison, _⟩ := of_allots? hallots
  have hclear : e.clears (.play on) = false := clears_of_kind (by rw [hon]; decide)
  obtain ⟨hsame, hcount⟩ := regime_after h.concordant.counted hclear
  have hid : choice.id < (e.perform on).bank.count :=
    (Bank.id_lt_of_choose? (choose?_of_allots? hallots)).trans_eq hcount.symm
  obtain ⟨tn, htn, horigin⟩ := originY_of_allots? h.concordant hallots hv
  obtain ⟨last, hlast, hlastHeld, hkept, hplays⟩ :=
    originY_run (h.after (.play on)) (hsame.trans hunison) hid htn hheld
  obtain ⟨w, hw, rfl⟩ := Option.map_eq_some_iff.1 hlast
  rw [← hsource] at hlastHeld
  have hmove : (w.move update ((e.perform on).run moments).temperament).mod1
      = w.mod1.schedule (update.fourth - v.originFor on) update.time := by
    rw [← horigin, ← hkept]
    rfl
  refine ⟨w, _, hw, voice?_noteUpdate hkind hplays hw hlastHeld, hmove, ?_⟩
  rw [hmove, Ramp.schedule_inj]
  unfold Voice.originFor
  cases v.isOff with
  | true => simp
  | false => simp

/-- One voice, with the pedal up, that follows a touch which began at a quarter. -/
def touchedVoice : Engine :=
  (((idle 2 48000.0 (EventQueue.empty 8) {} .plain).stage
    { voices := 1, protocol := .continuousTouch }).adoptAwaited.opened 8).perform
      (Event.touchOn 7 60.0 1.0 0.5 0.25 0)

/-- A touch that begins at three quarters. -/
def laterTouch : Event :=
  Event.touchOn 8 64.0 1.0 0.5 0.75 1

/-- The later touch moves up to one. -/
def laterTouchMoves : Event :=
  Event.noteUpdate 8 64.0 1.0 0.5 1.0 3

theorem attained_touchedVoice : Attained touchedVoice := by
  have hstaged : Reachable
      ((idle 2 48000.0 (EventQueue.empty 8) {} .plain).operate
        (.stage { voices := 1, protocol := .continuousTouch })) :=
    .operate (reachableBy_idlePair _) trivial
  exact ((Midway.opened hstaged 8).perform _).attained

/-- What happens between the two: the pedal goes down. -/
def untilItMoves : List Moment :=
  [.play (Event.sustain 1 true 2)]

/-- The touch that steals the voice has gone a quarter, and is taken to have gone three. -/
theorem move_of_stolenTouch :
    Attained touchedVoice
      ∧ touchedVoice.allots? laterTouch = some (.stolen 0)
      ∧ (touchedVoice.perform laterTouch).HeldThroughout 0 8 untilItMoves
      ∧ ∃ w x, ((touchedVoice.perform laterTouch).run untilItMoves).bank.voice? 0 = some w
          ∧ (((touchedVoice.perform laterTouch).run untilItMoves).perform
              laterTouchMoves).bank.voice? 0 = some x
          ∧ x.mod1 = w.mod1.schedule 0.75 3
          ∧ x.mod1 ≠ w.mod1.schedule 0.25 3 := by
  have hstolen : touchedVoice.allots? laterTouch = some (.stolen 0) := by decide +kernel
  have hvoice : ∃ v, touchedVoice.bank.voice? 0 = some v
      ∧ v.isOff = false ∧ v.originY = 0.25 := by
    refine ⟨(touchedVoice.bank.voice? 0).get (by decide +kernel), ?_, ?_, ?_⟩
    · exact (Option.some_get _).symm
    · decide +kernel
    · decide +kernel
  have hheld : (touchedVoice.perform laterTouch).HeldThroughout 0 8 untilItMoves := by
    constructor
    · decide +kernel
    · show ((touchedVoice.perform laterTouch).run untilItMoves).isHeldBy 0 8 = true
      decide +kernel
  obtain ⟨v, hv, hbusy, horigin⟩ := hvoice
  have hmoves : laterTouchMoves.kind = .noteUpdate := rfl
  obtain ⟨w, x, hw, hx, hmove, hright⟩ :=
    move_of_heldThroughout attained_touchedVoice hstolen hv hheld hmoves rfl
  have hgone : laterTouchMoves.fourth - laterTouch.fourth = 0.25 := by decide +kernel
  have htaken : laterTouchMoves.fourth - v.originFor laterTouch = 0.75 := by
    unfold Voice.originFor
    rw [hbusy, if_neg Bool.false_ne_true, horigin]
    decide +kernel
  refine ⟨attained_touchedVoice, hstolen, hheld, w, x, hw, hx, ?_, ?_⟩
  · rw [← htaken]
    exact hmove
  · rw [← hgone]
    intro hsame
    rcases hright.1 hsame with hoff | hequal
    · exact absurd (hbusy.symm.trans hoff) Bool.false_ne_true
    · rw [horigin] at hequal
      exact absurd hequal (by decide +kernel)

end Moves

end Engine
end Polyphony
