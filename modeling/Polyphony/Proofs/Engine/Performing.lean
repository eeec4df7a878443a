import Polyphony.Engine.Block
import Polyphony.Proofs.Voice.Answer
import Polyphony.Proofs.Voice.Bank

/-!
# Performing an event as answers of voices

An event reaches the voices that play notes in many ways, but each of them only
takes one of the answers of a voice.  Which one depends on the event, on the
tables and the settings of the engine, and on the number and the tenancy of the
voice.  The one event without answers is the one that silences the engine.

**Background.**  What an event never changes, among it the settings, the clock,
the queue and the number of voices, is the background of an engine.

**Results.**
* `background_perform`: performing an event keeps the background.
* `proper_answer`: what an event asks of a voice is one of the things that it may ask.
* `voices_perform`: unless it silences, an event makes every voice that plays
  notes take its answer, and leaves all others alone.
-/

namespace Polyphony

namespace Tenancy

/-- Whether the key of `source` holds the voice down. -/
def heldBy (tn : Tenancy) (source : UInt32) : Bool :=
  tn.phase == .held && tn.owner == some source

end Tenancy

namespace Role

/-- The role of a modulation with the number `slot`, counted from zero. -/
def mod? : Nat → Option Role
  | 0 => some .mod1
  | 1 => some .mod2
  | 2 => some .mod3
  | _ => none

/-- No modulation is a gate or a velocity. -/
theorem ne_of_mod?
    {slot : Nat} {role : Role}
    (h : mod? slot = some role) :
    role ≠ .gate ∧ role ≠ .velocity := by
  rcases slot with _ | _ | _ | slot
  · cases h
    exact ⟨by decide, by decide⟩
  · cases h
    exact ⟨by decide, by decide⟩
  · cases h
    exact ⟨by decide, by decide⟩
  · cases h

end Role

namespace Answer

/-- To adjust the modulation with a number, if there is one, as a controller event asks. -/
def moveMod (event : Event) (slot : Option Nat) : Answer :=
  match slot.bind Role.mod? with
  | some role => .adjust role (changeAt event event.second)
  | none => .rest

/-- Scheduling a modulation is an answer. -/
theorem take_moveMod
    (t : Temperament) (v : Voice) (event : Event) (slot : Nat) :
    v.take t (moveMod event (some slot))
      = v.mapControls (·.scheduleMod slot event.second event.time) := by
  rcases slot with _ | _ | _ | slot
  · rfl
  · rfl
  · rfl
  · rfl

/-- A controller leaves the note alone. -/
@[simp] theorem tenancy_moveMod (event : Event) (slot : Option Nat) (tn : Tenancy) :
    (moveMod event slot).tenancy tn = tn := by
  unfold moveMod
  split
  · rfl
  · rfl

end Answer

/-- What an event never changes. -/
structure Background where
  settings : Settings
  clock : Nat
  tuningShift : Float32
  capacity : Nat
  count : Nat
  queue : EventQueue
  mailbox : Option Mailbox
  staged : Option Settings
  drift : Drift
  temperament : Temperament
  sampleRate : Float32
  library : Library

namespace Engine

section Keeping

/-- What an event never changes. -/
def background (e : Engine) : Background where
  settings := e.settings
  clock := e.clock
  tuningShift := e.tuningShift
  capacity := e.capacity
  count := e.bank.count
  queue := e.queue
  mailbox := e.mailbox
  staged := e.staged
  drift := e.drift
  temperament := e.temperament
  sampleRate := e.sampleRate
  library := e.library

theorem background_mapActiveWhere
    (e : Engine) (fits : Voice → Bool) (f : Voice → Voice) :
    (e.mapActiveWhere fits f).background = e.background := by
  simp [background, mapActiveWhere, Bank.mapActiveWhere, Bank.mapActive, capacity]

theorem background_mapActive (e : Engine) (f : Voice → Voice) :
    (e.mapActive f).background = e.background := by
  simp [background, mapActive, Bank.mapActive, capacity]

/-- Even silence keeps the background. -/
theorem background_silence (e : Engine) :
    e.silence.background = e.background := by
  simp [background, silence, Bank.rewind, Bank.mapAll, capacity, Bank.capacity]

theorem background_startNote (e : Engine) (event : Event) :
    (e.startNote event).background = e.background := by
  unfold startNote
  split
  · rfl
  · dsimp only
    split
    · rfl
    · rename_i choice _
      cases choice <;>
        simp [background, playOn, Bank.afterChoice, Bank.turn, capacity, Bank.capacity,
          Bank.modify]

theorem background_displace (e : Engine) :
    e.displace.background = e.background := by
  unfold displace
  split
  · rfl
  · rfl

theorem background_startUnison (e : Engine) (event : Event) :
    (e.startUnison event).background = e.background := by
  unfold startUnison
  split
  · rfl
  · split
    · rfl
    · rw [background_mapActive, background_displace]
      rfl

theorem background_endUnison (e : Engine) (event : Event) :
    (e.endUnison event).background = e.background := by
  unfold endUnison
  dsimp only
  split
  · split
    · exact background_mapActive _ _
    · exact background_mapActiveWhere _ _ _
  · rfl

theorem background_movePedal (e : Engine) (event : Event) :
    (e.movePedal event).background = e.background := by
  unfold movePedal
  dsimp only
  split
  · rfl
  · exact background_mapActiveWhere _ _ _

theorem background_obeyMode (e : Engine) (event : Event) :
    (e.obeyMode event).background = e.background := by
  unfold obeyMode
  split
  · exact background_silence e
  · split
    · exact background_mapActiveWhere _ _ _
    · rfl

theorem background_moveController (e : Engine) (event : Event) :
    (e.moveController event).background = e.background := by
  unfold moveController
  split
  · split
    · exact background_obeyMode e event
    · split
      · rfl
      · exact background_mapActive _ _
  · split
    · split
      · exact background_obeyMode e event
      · rfl
    · exact background_mapActiveWhere _ _ _
  · rfl

theorem background_bendPitch (e : Engine) (event : Event) :
    (e.bendPitch event).background = e.background := by
  unfold bendPitch
  dsimp only
  split
  · exact background_mapActive _ _
  · split
    · rfl
    · unfold bendChannel
      split
      · rfl
      · rfl
  · rfl

theorem background_pressChannel (e : Engine) (event : Event) :
    (e.pressChannel event).background = e.background := by
  unfold pressChannel
  split
  · exact background_mapActive _ _
  · split
    · rfl
    · exact background_mapActiveWhere _ _ _
  · rfl

/-- Performing an event keeps the background. -/
theorem background_perform (e : Engine) (event : Event) :
    (e.perform event).background = e.background := by
  unfold perform
  cases event.kind with
  | noteOn =>
      dsimp only
      split
      · exact background_startUnison e event
      · exact background_startNote e event
  | noteOff =>
      dsimp only
      split
      · exact background_endUnison e event
      · exact background_mapActiveWhere _ _ _
  | noteUpdate => exact background_mapActiveWhere _ _ _
  | sustain => exact background_movePedal e event
  | controller => exact background_moveController e event
  | pitchBend => exact background_bendPitch e event
  | notePressure =>
      dsimp only [pressNote]
      split
      · exact background_mapActiveWhere _ _ _
      · rfl
  | channelPressure => exact background_pressChannel e event
  | null => rfl

/-- Performing several events keeps the background. -/
theorem background_performAll (events : List Event) (e : Engine) :
    (events.foldl perform e).background = e.background := by
  induction events generalizing e with
  | nil => rfl
  | cons event events ih => exact (ih (e.perform event)).trans (background_perform e event)

end Keeping

section Answers

/-- Whether an event is a mode message that the protocol lets take effect. -/
def obeys (e : Engine) (number : UInt8) (event : Event) : Bool :=
  event.kind == .controller && isMode number event &&
    match e.settings.protocol with
    | .conventional => true
    | .expressive => event.channel == mainChannel
    | .continuousTouch => false

/-- Whether an event silences the engine. -/
def silences (e : Engine) (event : Event) : Bool :=
  e.obeys allSoundOff event

/-- Only controllers are obeyed. -/
theorem kind_of_obeys
    {e : Engine} {number : UInt8} {event : Event}
    (h : e.obeys number event = true) :
    event.kind = .controller := by
  simp only [obeys, Bool.and_eq_true, beq_iff_eq] at h
  exact h.1.1

/-- What the end of a note asks of a voice. -/
def endAnswer (e : Engine) (event : Event) : Answer :=
  if e.pedal then .keep else .release event

/-- What a new note asks of a voice. -/
def noteOnAnswer (e : Engine) (event : Event) (id : Nat) : Answer :=
  if e.held.freeSlot?.isNone then .rest
  else if e.settings.unison then .start event
  else
    match e.choose? event with
    | some (.free chosen) => if id = chosen then .start event else .rest
    | some (.stolen chosen) => if id = chosen then .steal event true else .rest
    | none => .rest

/-- What a released note asks of a voice. -/
def noteOffAnswer (e : Engine) (event : Event) (tn : Tenancy) : Answer :=
  if e.settings.unison then
    if e.isSounding event.source then
      match e.displaced.top? with
      | some note => .steal (note.moveTo event.time) e.settings.glissando
      | none => if tn.phase == .held then e.endAnswer event else .rest
    else .rest
  else if tn.heldBy event.source then e.endAnswer event
  else .rest

/-- What a move of the pedal asks of a voice. -/
def pedalAnswer (event : Event) (tn : Tenancy) : Answer :=
  if event.pressesPedal then .rest
  else if tn.phase == .sustained then
    .release (Event.noteOff (tn.owner.getD 0) tn.channel event.time)
  else .rest

/-- A new note is dropped, or it is played by the voice, or it takes the voice over. -/
theorem noteOnAnswer_cases (e : Engine) (event : Event) (id : Nat) :
    e.noteOnAnswer event id = .rest
      ∨ e.noteOnAnswer event id = .start event
      ∨ e.noteOnAnswer event id = .steal event true := by
  unfold noteOnAnswer
  split
  · exact .inl rfl
  · split
    · exact .inr (.inl rfl)
    · split
      · split
        · exact .inr (.inl rfl)
        · exact .inl rfl
      · split
        · exact .inr (.inr rfl)
        · exact .inl rfl
      · exact .inl rfl

/-- A released note leaves the voice alone, gives it back to a note that waits, or ends there. -/
theorem noteOffAnswer_cases (e : Engine) (event : Event) (tn : Tenancy) :
    e.noteOffAnswer event tn = .rest
      ∨ (∃ note retrigger, e.noteOffAnswer event tn = .steal note retrigger)
      ∨ e.noteOffAnswer event tn = e.endAnswer event := by
  unfold noteOffAnswer
  split
  · split
    · split
      · exact .inr (.inl ⟨_, _, rfl⟩)
      · split
        · exact .inr (.inr rfl)
        · exact .inl rfl
    · exact .inl rfl
  · split
    · exact .inr (.inr rfl)
    · exact .inl rfl

/-- A note that ends is not held any longer. -/
theorem not_held_endAnswer (e : Engine) (event : Event) (tn : Tenancy) :
    ((e.endAnswer event).tenancy tn).phase ≠ .held := by
  unfold endAnswer
  split
  · exact Phase.noConfusion
  · exact Phase.noConfusion

/-- A voice that is held after the pedal has moved was not touched by it. -/
theorem tenancy_pedalAnswer_of_held
    {event : Event} {tn : Tenancy}
    (hheld : ((pedalAnswer event tn).tenancy tn).phase = .held) :
    (pedalAnswer event tn).tenancy tn = tn := by
  unfold pedalAnswer at hheld ⊢
  split
  · rfl
  · rename_i hpresses
    rw [if_neg hpresses] at hheld
    split
    · rename_i hkept
      rw [if_pos hkept] at hheld
      cases hheld
    · rfl

/-- The modulation that a controller moves when every note has its channel. -/
def axis? (s : Settings) (number : UInt8) : Option Nat :=
  if number = s.xController then some 1
  else if number = yController then some 2
  else if number = s.controllers.mod1 then some 0
  else none

/-- What a controller asks of a voice. -/
def controllerAnswer (e : Engine) (event : Event) (tn : Tenancy) : Answer :=
  if e.obeys allNotesOff event then
    if tn.phase != .off then .release event else .rest
  else
    match e.settings.protocol with
    | .conventional =>
        if isReserved event.number then .rest
        else .moveMod event (e.settings.controllers.slot? event.number)
    | .expressive =>
        if event.channel ≠ mainChannel ∧ tn.heldBy event.source then
          .moveMod event (axis? e.settings event.number)
        else .rest
    | .continuousTouch => .rest

/-- What the pitch wheel asks of a voice. -/
def bendAnswer (e : Engine) (event : Event) : Answer :=
  match e.settings.protocol with
  | .conventional =>
      .adjust .pitchBend
        (Answer.changeAt event (Tuning.wheelOffset event.first e.settings.bendRange))
  | .expressive => .rest
  | .continuousTouch => .rest

/-- What the pressure on a note asks of a voice. -/
def pressNoteAnswer (e : Engine) (event : Event) (tn : Tenancy) : Answer :=
  if e.settings.protocol = .conventional ∧ tn.owner == some event.source then
    .adjust .notePressure (Answer.changeAt event event.second)
  else .rest

/-- What the pressure on a channel asks of a voice. -/
def pressChannelAnswer (e : Engine) (event : Event) (tn : Tenancy) : Answer :=
  match e.settings.protocol with
  | .conventional => .adjust .channelPressure (Answer.changeAt event event.first)
  | .expressive =>
      if event.channel ≠ mainChannel ∧ tn.heldBy event.source then
        .adjust .channelPressure (Answer.changeAt event event.first)
      else .rest
  | .continuousTouch => .rest

/-- What an event asks of the voice with a number and a tenancy. -/
def answer (e : Engine) (event : Event) (id : Nat) (tn : Tenancy) : Answer :=
  match event.kind with
  | .noteOn => e.noteOnAnswer event id
  | .noteOff => e.noteOffAnswer event tn
  | .noteUpdate => if tn.heldBy event.source then .move event else .rest
  | .sustain => pedalAnswer event tn
  | .controller => e.controllerAnswer event tn
  | .pitchBend => e.bendAnswer event
  | .notePressure => e.pressNoteAnswer event tn
  | .channelPressure => e.pressChannelAnswer event tn
  | .null => .rest

theorem proper_moveMod (event : Event) (slot : Option Nat) (tn : Tenancy) :
    Answer.Proper event tn (.moveMod event slot) := by
  unfold Answer.moveMod
  cases hrole : slot.bind Role.mod? with
  | none => exact .rest
  | some role =>
      obtain ⟨number, -, hnumber⟩ := Option.bind_eq_some_iff.1 hrole
      obtain ⟨hgate, hvelocity⟩ := Role.ne_of_mod? hnumber
      exact .adjust role event.second hgate hvelocity

theorem proper_endAnswer
    {tn : Tenancy}
    (hheld : tn.phase = .held)
    (e : Engine) (event : Event) :
    Answer.Proper event tn (e.endAnswer event) := by
  unfold endAnswer
  split
  · exact .keep hheld
  · exact .release event rfl

theorem proper_noteOnAnswer (e : Engine) (event : Event) (id : Nat) (tn : Tenancy) :
    Answer.Proper event tn (e.noteOnAnswer event id) := by
  rcases e.noteOnAnswer_cases event id with hrest | hstart | hsteal
  · rw [hrest]
    exact .rest
  · rw [hstart]
    exact .start
  · rw [hsteal]
    exact .steal event true rfl

theorem proper_noteOffAnswer (e : Engine) (event : Event) (tn : Tenancy) :
    Answer.Proper event tn (e.noteOffAnswer event tn) := by
  unfold noteOffAnswer
  split
  · split
    · split
      · exact .steal _ _ (Event.time_moveTo _ _)
      · split
        case isTrue hheld => exact proper_endAnswer (by simpa using hheld) e event
        case isFalse => exact .rest
    · exact .rest
  · split
    case isTrue hheld =>
      simp only [Tenancy.heldBy, Bool.and_eq_true, beq_iff_eq] at hheld
      exact proper_endAnswer hheld.1 e event
    case isFalse => exact .rest

theorem proper_pedalAnswer (event : Event) (tn : Tenancy) :
    Answer.Proper event tn (pedalAnswer event tn) := by
  unfold pedalAnswer
  split
  · exact .rest
  · split
    · exact .release _ rfl
    · exact .rest

theorem proper_controllerAnswer (e : Engine) (event : Event) (tn : Tenancy) :
    Answer.Proper event tn (e.controllerAnswer event tn) := by
  unfold controllerAnswer
  split
  · split
    · exact .release event rfl
    · exact .rest
  · split
    · split
      · exact .rest
      · exact proper_moveMod _ _ _
    · split
      · exact proper_moveMod _ _ _
      · exact .rest
    · exact .rest

/-- All that an event asks of a voice is proper. -/
theorem proper_answer (e : Engine) (event : Event) (id : Nat) (tn : Tenancy) :
    Answer.Proper event tn (e.answer event id tn) := by
  unfold answer
  split
  · exact e.proper_noteOnAnswer event id tn
  · exact e.proper_noteOffAnswer event tn
  · split
    · exact .move
    · exact .rest
  · exact proper_pedalAnswer event tn
  · exact e.proper_controllerAnswer event tn
  · unfold bendAnswer
    split
    · exact .adjust _ _ (by decide) (by decide)
    · exact .rest
    · exact .rest
  · unfold pressNoteAnswer
    split
    · exact .adjust _ _ (by decide) (by decide)
    · exact .rest
  · unfold pressChannelAnswer
    split
    · exact .adjust _ _ (by decide) (by decide)
    · split
      · exact .adjust _ _ (by decide) (by decide)
      · exact .rest
    · exact .rest
  · exact .rest

/-- No voice is held after the end of all notes. -/
theorem not_held_answer_of_obeys
    {e : Engine} {event : Event}
    (hnotes : e.obeys allNotesOff event = true)
    (id : Nat) (tn : Tenancy) :
    ((e.answer event id tn).tenancy tn).phase ≠ .held := by
  simp only [answer, kind_of_obeys hnotes, controllerAnswer, hnotes, if_true]
  split
  case isTrue => exact Phase.noConfusion
  case isFalse hoff =>
    have hphase : tn.phase = .off := by
      simpa using hoff
    simp [Answer.tenancy, hphase]

/-- Only notes, the pedal and the end of all notes change tenancies. -/
theorem tenancy_answer
    {e : Engine} {event : Event}
    (hnotes : e.obeys allNotesOff event = false)
    (hon : event.kind ≠ .noteOn)
    (hoff : event.kind ≠ .noteOff)
    (hsustain : event.kind ≠ .sustain)
    (id : Nat) (tn : Tenancy) :
    (e.answer event id tn).tenancy tn = tn := by
  cases hkind : event.kind with
  | noteOn => exact absurd hkind hon
  | noteOff => exact absurd hkind hoff
  | sustain => exact absurd hkind hsustain
  | noteUpdate =>
      simp only [answer, hkind]
      split <;> rfl
  | controller =>
      simp only [answer, hkind, controllerAnswer, hnotes, if_neg Bool.false_ne_true]
      split
      · split
        · rfl
        · exact Answer.tenancy_moveMod _ _ _
      · split
        · exact Answer.tenancy_moveMod _ _ _
        · rfl
      · rfl
  | pitchBend =>
      simp only [answer, hkind, bendAnswer]
      split <;> rfl
  | notePressure =>
      simp only [answer, hkind, pressNoteAnswer]
      split <;> rfl
  | channelPressure =>
      simp only [answer, hkind, pressChannelAnswer]
      split
      · rfl
      · split <;> rfl
      · rfl
  | null =>
      simp only [answer, hkind]
      rfl

/-- The bank after every voice that plays notes has taken its answer. -/
def answered (e : Engine) (f : Nat → Tenancy → Answer) : Bank :=
  e.bank.mapActiveIdx fun id v => v.take e.temperament (f id v.toTenancy)

/-- What is done to the voices that fit is an answer, if it is one for each of them. -/
theorem bank_mapActiveWhere
    (e : Engine) (fits : Voice → Bool) (act : Voice → Voice) (f : Nat → Tenancy → Answer)
    (hfits : ∀ id v, fits v = true → v.take e.temperament (f id v.toTenancy) = act v)
    (hrest : ∀ id v, fits v = false → v.take e.temperament (f id v.toTenancy) = v) :
    (e.mapActiveWhere fits act).bank = e.answered f := by
  unfold mapActiveWhere answered Bank.mapActiveWhere Bank.mapActive
  dsimp only
  congr 1
  funext id v
  cases hv : fits v with
  | true => rw [hfits id v hv, if_pos rfl]
  | false => rw [hrest id v hv, if_neg (by decide)]

/-- What is done to all voices that play notes is an answer, if it is one for each of them. -/
theorem bank_mapActive
    (e : Engine) (act : Voice → Voice) (f : Nat → Tenancy → Answer)
    (h : ∀ id v, v.take e.temperament (f id v.toTenancy) = act v) :
    (e.mapActive act).bank = e.answered f := by
  unfold mapActive answered Bank.mapActive
  dsimp only
  congr 1
  funext id v
  exact (h id v).symm

/-- Where every answer is to rest, nothing happens. -/
theorem answered_rest
    {e : Engine} {f : Nat → Tenancy → Answer}
    (h : ∀ id tn, f id tn = .rest) :
    e.answered f = e.bank := by
  have hsame :
      (fun id (v : Voice) => v.take e.temperament (f id v.toTenancy)) = fun _ v => v := by
    funext id v
    rw [h id v.toTenancy]
    rfl
  unfold answered
  rw [hsame]
  exact Bank.mapActiveIdx_id e.bank

end Answers

section Performing

variable {e : Engine} {event : Event}

theorem voices_startNote
    (hunison : e.settings.unison = false) :
    (e.startNote event).bank.voices = (e.answered fun id _ => e.noteOnAnswer event id).voices := by
  unfold startNote
  cases hslot : e.held.freeSlot? with
  | none =>
      rw [answered_rest fun id tn => by simp [noteOnAnswer, hslot]]
  | some slot =>
      dsimp only
      cases hchoice : e.choose? event with
      | none =>
          rw [answered_rest fun id tn => by simp [noteOnAnswer, hslot, hunison, hchoice]]
      | some choice =>
          have hlt : choice.id < e.bank.count := Bank.id_lt_of_choose? hchoice
          cases choice with
          | free chosen =>
              have hmodify :=
                Bank.modify_eq_mapActiveIdx e.bank (fun v => v.start event e.temperament) hlt
              show (e.bank.modify chosen fun v => v.start event e.temperament).voices = _
              rw [show chosen = (Choice.free chosen).id from rfl, hmodify]
              unfold answered noteOnAnswer
              simp only [hslot, hunison, hchoice, Choice.id]
              congr 2
              funext id v
              by_cases hid : id = chosen <;> simp [hid, Voice.take]
          | stolen chosen =>
              have hmodify :=
                Bank.modify_eq_mapActiveIdx e.bank
                  (fun v => v.steal event e.temperament true) hlt
              show (e.bank.modify chosen fun v => v.steal event e.temperament true).voices = _
              rw [show chosen = (Choice.stolen chosen).id from rfl, hmodify]
              unfold answered noteOnAnswer
              simp only [hslot, hunison, hchoice, Choice.id]
              congr 2
              funext id v
              by_cases hid : id = chosen <;> simp [hid, Voice.take]

theorem bank_displace (e : Engine) :
    e.displace.bank = e.bank := by
  unfold displace
  split
  · rfl
  · rfl

theorem temperament_displace (e : Engine) :
    e.displace.temperament = e.temperament := by
  unfold displace
  split
  · rfl
  · rfl

theorem bank_startUnison
    (hunison : e.settings.unison = true) :
    (e.startUnison event).bank = e.answered fun id _ => e.noteOnAnswer event id := by
  unfold startUnison
  split
  case isTrue hcount =>
    have hnone : e.bank.voices
        = (e.answered fun id _ => e.noteOnAnswer event id).voices := by
      apply List.ext_getElem?
      intro id
      simp [answered, Bank.mapActiveIdx, hcount]
    exact congrArg (fun voices => ({ e.bank with voices } : Bank)) hnone
  case isFalse =>
    cases hslot : e.held.freeSlot? with
    | none =>
        rw [answered_rest fun id tn => by simp [noteOnAnswer, hslot]]
    | some slot =>
        dsimp only
        rw [bank_mapActive _ _ (fun _ _ => .start event) fun id v => by
          rw [temperament_displace]
          rfl]
        unfold answered noteOnAnswer
        simp only [bank_displace, temperament_displace, hslot, hunison]
        rfl

/-- Ending a note on the voices that fit, by an engine with the same pedal. -/
theorem take_endAnswer (v : Voice) (t : Temperament) :
    v.take t (e.endAnswer event) = e.endVoice event v := by
  unfold endAnswer endVoice
  cases e.pedal <;> rfl

theorem bank_endNote
    (hunison : e.settings.unison = false) :
    (e.endNote event).bank = e.answered fun _ tn => e.noteOffAnswer event tn := by
  unfold endNote
  apply bank_mapActiveWhere
  · intro id v hv
    have hheld : v.toTenancy.heldBy event.source = true := hv
    simp [noteOffAnswer, hunison, hheld, take_endAnswer]
  · intro id v hv
    have hheld : v.toTenancy.heldBy event.source = false := hv
    simp [noteOffAnswer, hunison, hheld, Voice.take]

theorem bank_endUnison
    (hunison : e.settings.unison = true) :
    (e.endUnison event).bank = e.answered fun _ tn => e.noteOffAnswer event tn := by
  unfold endUnison
  dsimp only
  have hforget (held : HeldNotes) :
      ({ e with held } : Engine).isSounding event.source = e.isSounding event.source := by
    rfl
  rw [hforget]
  cases hsound : e.isSounding event.source with
  | false =>
      rw [answered_rest fun id tn => by simp [noteOffAnswer, hunison, hsound]]
      rfl
  | true =>
      rw [if_pos rfl]
      cases htop : e.displaced.top? with
      | some note =>
          unfold revive
          dsimp only
          apply bank_mapActive
          intro id v
          simp [noteOffAnswer, hunison, hsound, htop, Voice.take]
      | none =>
          dsimp only
          apply bank_mapActiveWhere
          · intro id v hv
            have hheld : (v.phase == .held) = true := hv
            simp only [noteOffAnswer, hunison, hsound, htop, hheld, if_pos]
            exact take_endAnswer v _
          · intro id v hv
            have hheld : (v.phase == .held) = false := hv
            simp [noteOffAnswer, hunison, hsound, htop, hheld, Voice.take]

theorem bank_moveTouch :
    (e.moveTouch event).bank
      = e.answered fun _ tn => if tn.heldBy event.source then .move event else .rest := by
  unfold moveTouch
  apply bank_mapActiveWhere
  · intro id v hv
    have hheld : v.toTenancy.heldBy event.source = true := hv
    simp [hheld, Voice.take]
  · intro id v hv
    have hheld : v.toTenancy.heldBy event.source = false := hv
    simp [hheld, Voice.take]

theorem bank_movePedal :
    (e.movePedal event).bank = e.answered fun _ tn => pedalAnswer event tn := by
  unfold movePedal
  dsimp only
  cases hdown : event.pressesPedal with
  | true =>
      rw [answered_rest fun id tn => by simp [pedalAnswer, hdown]]
      rfl
  | false =>
      rw [if_neg (by decide)]
      apply bank_mapActiveWhere
      · intro id v hv
        have hkept : (v.phase == .sustained) = true := hv
        simp [pedalAnswer, hdown, hkept, Voice.take, pedalRelease]
      · intro id v hv
        have hkept : (v.phase == .sustained) = false := hv
        simp [pedalAnswer, hdown, hkept, Voice.take]

/-- A mode message that does not silence is the end of all notes, or nothing. -/
theorem bank_obeyMode
    (hsilent : isMode allSoundOff event = false) :
    (e.obeyMode event).bank = e.answered fun _ tn =>
      if isMode allNotesOff event then
        if tn.phase != .off then .release event else .rest
      else .rest := by
  unfold obeyMode
  rw [hsilent, if_neg (by decide)]
  cases hnotes : isMode allNotesOff event with
  | false => exact (answered_rest fun id tn => by simp).symm
  | true =>
      simp only [if_true]
      unfold endAllNotes
      refine bank_mapActiveWhere { e with held := .empty, displaced := .empty } _ _
        (fun _ tn => if tn.phase != .off then .release event else .rest) ?_ ?_
      · intro id v hv
        have hbusy : (v.phase != .off) = true := hv
        simp [hbusy, Voice.take]
      · intro id v hv
        have hbusy : (v.phase != .off) = false := hv
        simp [hbusy, Voice.take]

/-- Binding a controller to an axis schedules the modulation of the axis. -/
theorem bindAxis_eq (s : Settings) (c : Controls) :
    bindAxis s event c
      = ((axis? s event.number).map fun slot =>
          c.scheduleMod slot event.second event.time).getD c := by
  unfold bindAxis axis?
  dsimp only
  split
  · rfl
  · split
    · rfl
    · split
      · rfl
      · rfl

/-- Moving a controller that is bound to an axis is an answer. -/
theorem take_moveMod_axis
    (t : Temperament) (v : Voice) (s : Settings) :
    v.take t (.moveMod event (axis? s event.number)) = v.mapControls (bindAxis s event) := by
  have hbind : bindAxis s event = fun c =>
      ((axis? s event.number).map fun slot =>
        c.scheduleMod slot event.second event.time).getD c := by
    funext c
    exact bindAxis_eq s c
  rw [hbind]
  cases axis? s event.number with
  | none => rfl
  | some slot => exact Answer.take_moveMod t v event slot

theorem bank_moveController
    (hkind : event.kind = .controller)
    (hsilent : e.silences event = false) :
    (e.moveController event).bank = e.answered fun _ tn => e.controllerAnswer event tn := by
  unfold moveController controllerAnswer
  cases hprotocol : e.settings.protocol with
  | conventional =>
      have hmode : isMode allSoundOff event = false := by
        simpa [silences, obeys, hkind, hprotocol] using hsilent
      have hobeys : e.obeys allNotesOff event = isMode allNotesOff event := by
        simp [obeys, hkind, hprotocol]
      rw [hobeys]
      dsimp only
      cases hreserved : isReserved event.number with
      | true =>
          rw [if_pos rfl, bank_obeyMode hmode]
          rfl
      | false =>
          have hnotes : isMode allNotesOff event = false := by
            simp_all [isReserved, isMode]
          rw [if_neg (by decide), hnotes]
          cases hslot : e.settings.controllers.slot? event.number with
          | none => exact (answered_rest fun id tn => by rfl).symm
          | some slot =>
              apply bank_mapActive
              intro id v
              exact Answer.take_moveMod _ v event slot
  | expressive =>
      by_cases hmain : event.channel = mainChannel
      · have hmode : isMode allSoundOff event = false := by
          simpa [silences, obeys, hkind, hprotocol, hmain] using hsilent
        have hobeys : e.obeys allNotesOff event = isMode allNotesOff event := by
          simp [obeys, hkind, hprotocol, hmain]
        rw [hobeys]
        dsimp only
        rw [if_pos hmain]
        cases hreserved : isReserved event.number with
        | true =>
            rw [if_pos rfl, bank_obeyMode hmode]
            simp [hmain]
        | false =>
            have hnotes : isMode allNotesOff event = false := by
              simp_all [isReserved, isMode]
            rw [if_neg (by decide), hnotes]
            symm
            apply answered_rest
            intro id tn
            simp [hmain]
      · have hobeys : e.obeys allNotesOff event = false := by
          simp [obeys, hprotocol, hmain]
        rw [hobeys]
        dsimp only
        rw [if_neg hmain]
        apply bank_mapActiveWhere
        · intro id v hv
          have hheld : v.toTenancy.heldBy event.source = true := hv
          simp only [hheld, hmain, ne_eq, not_false_eq_true, and_self, if_true,
            if_neg Bool.false_ne_true]
          exact take_moveMod_axis _ v _
        · intro id v hv
          have hheld : v.toTenancy.heldBy event.source = false := hv
          simp [hheld, Voice.take]
  | continuousTouch =>
      have hobeys : e.obeys allNotesOff event = false := by
        simp [obeys, hprotocol]
      rw [hobeys]
      exact (answered_rest fun id tn => by rfl).symm

theorem bank_bendPitch :
    (e.bendPitch event).bank = e.answered fun _ _ => e.bendAnswer event := by
  unfold bendPitch bendAnswer
  cases e.settings.protocol with
  | conventional =>
      apply bank_mapActive
      intro id v
      rfl
  | expressive =>
      rw [answered_rest fun id tn => by rfl]
      dsimp only
      split
      · rfl
      · unfold bendChannel
        split
        · rfl
        · rfl
  | continuousTouch => exact (answered_rest fun id tn => by rfl).symm

theorem bank_pressNote :
    (e.pressNote event).bank = e.answered fun _ tn => e.pressNoteAnswer event tn := by
  unfold pressNote pressNoteAnswer
  by_cases hprotocol : e.settings.protocol = .conventional
  · rw [if_pos hprotocol]
    apply bank_mapActiveWhere
    · intro id v hv
      rw [if_pos ⟨hprotocol, hv⟩]
      rfl
    · intro id v hv
      rw [if_neg fun h => by simp [hv] at h]
      rfl
  · rw [if_neg hprotocol, answered_rest fun id tn => by rw [if_neg fun h => hprotocol h.1]]

theorem bank_pressChannel :
    (e.pressChannel event).bank = e.answered fun _ tn => e.pressChannelAnswer event tn := by
  unfold pressChannel pressChannelAnswer
  cases e.settings.protocol with
  | conventional =>
      apply bank_mapActive
      intro id v
      rfl
  | expressive =>
      dsimp only
      by_cases hmain : event.channel = mainChannel
      · rw [if_pos hmain, answered_rest fun id tn => by rw [if_neg fun h => h.1 hmain]]
      · rw [if_neg hmain]
        apply bank_mapActiveWhere
        · intro id v hv
          rw [if_pos ⟨hmain, hv⟩]
          rfl
        · intro id v hv
          have hheld : v.toTenancy.heldBy event.source = false := hv
          rw [if_neg fun h => by simp [hheld] at h]
          rfl
  | continuousTouch => exact (answered_rest fun id tn => by rfl).symm

/-- But for a new note on a voice of its own, an event changes the bank by answers alone. -/
theorem bank_perform
    (hsilent : e.silences event = false)
    (hnote : ¬ (event.kind = .noteOn ∧ e.settings.unison = false)) :
    (e.perform event).bank = e.answered (e.answer event) := by
  unfold perform answer
  cases hkind : event.kind with
  | noteOn =>
      have hunison : e.settings.unison = true := by
        simpa [hkind] using hnote
      dsimp only
      rw [hunison]
      exact bank_startUnison hunison
  | noteOff =>
      cases hunison : e.settings.unison with
      | true => exact bank_endUnison hunison
      | false => exact bank_endNote hunison
  | noteUpdate => exact bank_moveTouch
  | sustain => exact bank_movePedal
  | controller => exact bank_moveController hkind hsilent
  | pitchBend => exact bank_bendPitch
  | notePressure => exact bank_pressNote
  | channelPressure => exact bank_pressChannel
  | null => exact (answered_rest fun _ _ => rfl).symm

/--
Unless an event silences, every voice that plays notes takes its answer, and all
others stay as they are.
-/
theorem voices_perform
    (hsilent : e.silences event = false) :
    (e.perform event).bank.voices = (e.answered (e.answer event)).voices := by
  by_cases hnote : event.kind = .noteOn ∧ e.settings.unison = false
  · obtain ⟨hkind, hunison⟩ := hnote
    unfold perform answer
    rw [hkind]
    dsimp only
    rw [hunison]
    exact voices_startNote hunison
  · rw [bank_perform hsilent hnote]

/-- An event that silences does nothing else. -/
theorem perform_of_silences
    (h : e.silences event = true) :
    e.perform event = e.silence := by
  unfold silences obeys at h
  simp only [Bool.and_eq_true, beq_iff_eq] at h
  obtain ⟨⟨hkind, hmode⟩, hprotocol⟩ := h
  have hreserved : isReserved event.number = true := by
    have hnumber : (event.number == allSoundOff) = true := by
      unfold isMode at hmode
      simp only [Bool.and_eq_true] at hmode
      exact hmode.1
    simp [isReserved, hnumber]
  have hobey : e.obeyMode event = e.silence := by
    unfold obeyMode
    rw [hmode, if_pos rfl]
  unfold perform moveController
  rw [hkind]
  dsimp only
  cases hp : e.settings.protocol with
  | conventional =>
      dsimp only
      rw [hreserved, if_pos rfl, hobey]
  | expressive =>
      have hmain : event.channel = mainChannel := by
        simpa [hp] using hprotocol
      dsimp only
      rw [if_pos hmain, hreserved, if_pos rfl, hobey]
  | continuousTouch => simp [hp] at hprotocol

/-- The voices that play notes take their answers. -/
theorem active_perform
    (hsilent : e.silences event = false) :
    (e.perform event).bank.active
      = e.bank.active.mapIdx fun id v =>
          v.take e.temperament (e.answer event id v.toTenancy) := by
  have hcount : (e.perform event).bank.count = e.bank.count :=
    congrArg Background.count (background_perform e event)
  unfold Bank.active
  rw [voices_perform hsilent, hcount]
  unfold answered Bank.mapActiveIdx
  apply List.ext_getElem?
  intro id
  simp only [List.getElem?_take, List.getElem?_mapIdx]
  by_cases hid : id < e.bank.count
  · simp [hid]
  · simp [hid]

end Performing

end Engine
end Polyphony
