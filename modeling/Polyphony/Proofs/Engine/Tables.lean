import Polyphony.Proofs.Engine.Performing

/-!
# The tables after an event

An engine keeps three records of notes beside its voices: the table of held
notes, the stack of displaced ones and the pedal.  Each has one way in which an
event changes it, whatever the path through the engine.

**Result.**
* `tables_perform`: the tables after an event that does not silence.
-/

namespace Polyphony
namespace Engine

section Tables

/-- The table of held notes after an event. -/
def heldAfter (e : Engine) (event : Event) : HeldNotes :=
  match event.kind with
  | .noteOn =>
      match e.held.freeSlot? with
      | none => e.held
      | some slot =>
          if e.settings.unison then
            if e.bank.count = 0 then e.held
            else
              match e.soundingEvent? with
              | none => e.held.put slot event
              | some sounding => (e.held.put slot event).forget sounding.source
          else if (e.choose? event).isSome then e.held.put slot event
          else (e.held.put slot event).forget event.source
  | .noteOff => e.held.forget event.source
  | .controller => if e.obeys allNotesOff event then .empty else e.held
  | _ => e.held

/-- The stack of displaced notes after an event. -/
def displacedAfter (e : Engine) (event : Event) : DisplacedNotes :=
  match event.kind with
  | .noteOn =>
      if e.settings.unison ∧ e.bank.count ≠ 0 ∧ e.held.freeSlot?.isSome then
        match e.soundingEvent? with
        | none => e.displaced
        | some sounding => e.displaced.push sounding
      else e.displaced
  | .noteOff =>
      if e.settings.unison then
        if e.isSounding event.source then e.displaced.pop
        else e.displaced.forget event.source
      else e.displaced
  | .controller => if e.obeys allNotesOff event then .empty else e.displaced
  | _ => e.displaced

/-- The pedal after an event. -/
def pedalAfter (e : Engine) (event : Event) : Bool :=
  if event.kind = .sustain then event.pressesPedal else e.pedal

/-- What an engine knows about notes, but for the tenancies. -/
structure Tables where
  held : HeldNotes
  displaced : DisplacedNotes
  pedal : Bool

/-- The tables of an engine. -/
def tables (e : Engine) : Tables where
  held := e.held
  displaced := e.displaced
  pedal := e.pedal

variable {e : Engine} {event : Event}

theorem tables_startNote
    (hkind : event.kind = .noteOn)
    (hunison : e.settings.unison = false) :
    (e.startNote event).tables
      = ⟨e.heldAfter event, e.displacedAfter event, e.pedalAfter event⟩ := by
  unfold startNote heldAfter displacedAfter pedalAfter
  cases hslot : e.held.freeSlot? with
  | none => simp [tables, hkind, hunison]
  | some slot =>
      cases hchoice : e.choose? event with
      | none => simp [tables, hkind, hunison]
      | some choice => cases choice <;> simp [tables, hkind, hunison, playOn]

/-- The note that sounds moves from the table onto the stack. -/
theorem tables_displace (e : Engine) :
    e.displace.tables =
      match e.soundingEvent? with
      | none => e.tables
      | some sounding =>
          ⟨e.held.forget sounding.source, e.displaced.push sounding, e.pedal⟩ := by
  unfold displace
  cases e.soundingEvent? <;> rfl

theorem tables_startUnison
    (hkind : event.kind = .noteOn)
    (hunison : e.settings.unison = true) :
    (e.startUnison event).tables
      = ⟨e.heldAfter event, e.displacedAfter event, e.pedalAfter event⟩ := by
  unfold startUnison heldAfter displacedAfter pedalAfter
  split
  case isTrue hcount =>
    cases e.held.freeSlot? <;> simp [tables, hkind, hunison, hcount]
  case isFalse hcount =>
    cases hslot : e.held.freeSlot? with
    | none => simp [tables, hkind]
    | some slot =>
        show ({ e with held := e.held.put slot event } : Engine).displace.tables = _
        rw [tables_displace]
        show (match e.soundingEvent? with | none => _ | some sounding => _) = _
        cases e.soundingEvent? <;> simp [tables, hkind, hunison, hcount]

theorem tables_endUnison
    (hkind : event.kind = .noteOff)
    (hunison : e.settings.unison = true) :
    (e.endUnison event).tables
      = ⟨e.heldAfter event, e.displacedAfter event, e.pedalAfter event⟩ := by
  have hsounding (held : HeldNotes) :
      ({ e with held } : Engine).isSounding event.source = e.isSounding event.source := by
    rfl
  unfold endUnison heldAfter displacedAfter pedalAfter
  dsimp only
  rw [hsounding]
  cases e.isSounding event.source with
  | false => simp [tables, hkind, hunison]
  | true =>
      cases htop : e.displaced.top? with
      | some note => simp [tables, hkind, hunison, revive, mapActive]
      | none =>
          have hnil : e.displaced.notes = [] := by
            simpa [DisplacedNotes.top?] using htop
          have hpop : e.displaced.pop = e.displaced := by
            unfold DisplacedNotes.pop
            rw [hnil, List.tail_nil, ← hnil]
          simp [tables, hkind, hunison, mapActiveWhere, hpop]

/-- Unless it silences, a controller empties the tables or leaves them alone. -/
theorem tables_moveController
    (hkind : event.kind = .controller)
    (hsilent : e.silences event = false) :
    (e.moveController event).tables
      = ⟨e.heldAfter event, e.displacedAfter event, e.pedalAfter event⟩ := by
  unfold moveController heldAfter displacedAfter pedalAfter obeyMode
  cases hprotocol : e.settings.protocol with
  | conventional =>
      have hmode : isMode allSoundOff event = false := by
        simpa [silences, obeys, hkind, hprotocol] using hsilent
      cases hreserved : isReserved event.number with
      | true =>
          cases hnotes : isMode allNotesOff event <;>
            simp [tables, hkind, hprotocol, obeys, hmode, hnotes, endAllNotes, mapActiveWhere]
      | false =>
          have hnotes : isMode allNotesOff event = false := by
            simp_all [isReserved, isMode]
          cases e.settings.controllers.slot? event.number <;>
            simp [tables, hkind, hprotocol, obeys, hnotes, mapActive]
  | expressive =>
      by_cases hmain : event.channel = mainChannel
      · have hmode : isMode allSoundOff event = false := by
          simpa [silences, obeys, hkind, hprotocol, hmain] using hsilent
        cases hreserved : isReserved event.number with
        | true =>
            cases hnotes : isMode allNotesOff event <;>
              simp [tables, hkind, hprotocol, hmain, obeys, hmode, hnotes, endAllNotes,
                mapActiveWhere]
        | false =>
            have hnotes : isMode allNotesOff event = false := by
              simp_all [isReserved, isMode]
            simp [tables, hkind, hprotocol, hmain, obeys, hnotes]
      · simp [tables, hkind, hprotocol, hmain, obeys, mapActiveWhere]
  | continuousTouch => simp [tables, hkind, hprotocol, obeys]

/-- Unless it silences, an event changes the tables as follows. -/
theorem tables_perform
    (hsilent : e.silences event = false) :
    (e.perform event).tables
      = ⟨e.heldAfter event, e.displacedAfter event, e.pedalAfter event⟩ := by
  unfold perform
  cases hkind : event.kind with
  | noteOn =>
      cases hunison : e.settings.unison with
      | true => exact tables_startUnison hkind hunison
      | false => exact tables_startNote hkind hunison
  | noteOff =>
      cases hunison : e.settings.unison with
      | true => exact tables_endUnison hkind hunison
      | false =>
          simp [tables, heldAfter, displacedAfter, pedalAfter, hkind, hunison, endNote,
            mapActiveWhere]
  | noteUpdate =>
      simp [tables, heldAfter, displacedAfter, pedalAfter, hkind, moveTouch, mapActiveWhere]
  | sustain =>
      cases hdown : event.pressesPedal <;>
        simp [tables, heldAfter, displacedAfter, pedalAfter, hkind, movePedal, mapActiveWhere,
          hdown]
  | controller => exact tables_moveController hkind hsilent
  | pitchBend =>
      dsimp only [bendPitch]
      split
      · simp [tables, heldAfter, displacedAfter, pedalAfter, hkind, mapActive]
      · split
        · simp [tables, heldAfter, displacedAfter, pedalAfter, hkind]
        · unfold bendChannel
          split <;> simp [tables, heldAfter, displacedAfter, pedalAfter, hkind]
      · simp [tables, heldAfter, displacedAfter, pedalAfter, hkind]
  | notePressure =>
      dsimp only [pressNote]
      split <;> simp [tables, heldAfter, displacedAfter, pedalAfter, hkind, mapActiveWhere]
  | channelPressure =>
      dsimp only [pressChannel]
      split
      · simp [tables, heldAfter, displacedAfter, pedalAfter, hkind, mapActive]
      · split <;> simp [tables, heldAfter, displacedAfter, pedalAfter, hkind, mapActiveWhere]
      · simp [tables, heldAfter, displacedAfter, pedalAfter, hkind]
  | null => simp [tables, heldAfter, displacedAfter, pedalAfter, hkind]

/-- Where the next search for a voice begins after an event: finding a free one moves it. -/
def rotationAfter (e : Engine) (event : Event) : UInt64 :=
  if event.kind = .noteOn ∧ e.settings.unison = false ∧ e.held.freeSlot?.isSome then
    match e.choose? event with
    | some (.free _) => e.bank.rotation + 1
    | _ => e.bank.rotation
  else e.bank.rotation

theorem rotation_startNote
    (hkind : event.kind = .noteOn)
    (hunison : e.settings.unison = false) :
    (e.startNote event).bank.rotation = e.rotationAfter event := by
  unfold startNote rotationAfter
  cases hslot : e.held.freeSlot? with
  | none => simp
  | some slot =>
      cases hchoice : e.choose? event with
      | none => simp [hkind, hunison]
      | some choice =>
          cases choice with
          | free id =>
              simp [hkind, hunison, playOn, Bank.afterChoice, Bank.turn, Bank.modify]
          | stolen id => simp [hkind, hunison, playOn, Bank.afterChoice, Bank.modify]

/-- The rotation after an event that does not silence. -/
theorem rotation_perform
    (hsilent : e.silences event = false) :
    (e.perform event).bank.rotation = e.rotationAfter event := by
  by_cases hnote : event.kind = .noteOn ∧ e.settings.unison = false
  · obtain ⟨hkind, hunison⟩ := hnote
    unfold perform
    rw [hkind]
    dsimp only
    rw [hunison, if_neg Bool.false_ne_true]
    exact rotation_startNote hkind hunison
  · -- all other events change the bank by answers alone
    have hbank : (e.perform event).bank = e.answered (e.answer event) := bank_perform hsilent hnote
    have hafter : e.rotationAfter event = e.bank.rotation := by
      unfold rotationAfter
      exact if_neg fun h => hnote ⟨h.1, h.2.1⟩
    rw [hbank, hafter]
    rfl

end Tables

end Engine
end Polyphony
