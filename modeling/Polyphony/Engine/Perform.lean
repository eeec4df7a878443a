import Polyphony.Engine.Basic

/-!
# Performing events

Each event of a block changes tenancies, tables and the goals of ramps.  Its
time has been counted from the beginning of the block.

**Notes.** A new note is put into the table of held notes and gets a voice; in
unison it takes all voices, and the note that sounded before is displaced.  A
released note ends, or is kept by the pedal; in unison the most recently
displaced note comes back first.

**Everything else** reaches voices by a rule of the protocol: all voices alike,
the voice of one source, or a bus that is shared by all voices or by those of
one channel.
-/

namespace Polyphony
namespace Engine

/-- The channel shared by all voices when every note has a channel of its own. -/
def mainChannel : UInt8 := 1

section Notes

/-- Does something to every voice that plays notes. -/
def mapActive (e : Engine) (f : Voice → Voice) : Engine :=
  { e with bank := e.bank.mapActive f }

/-- Does something to every voice that plays notes and fits. -/
def mapActiveWhere (e : Engine) (fits : Voice → Bool) (f : Voice → Voice) : Engine :=
  { e with bank := e.bank.mapActiveWhere fits f }

/-- Lets a voice play a note: one that is free starts, another one is stolen. -/
def playOn (e : Engine) (event : Event) : Choice → Engine
  | .free id => { e with bank := e.bank.modify id fun v => v.start event e.temperament }
  | .stolen id => { e with bank := e.bank.modify id fun v => v.steal event e.temperament true }

/-- The voice for a new note. -/
def choose? (e : Engine) (event : Event) : Option Choice :=
  e.bank.choose? event.first e.settings.rotate

/-- Starts a note on a voice of its own. -/
def startNote (e : Engine) (event : Event) : Engine :=
  match e.held.freeSlot? with
  | none => e
  | some slot =>
    let held := e.held.put slot event
    match e.choose? event with
    | none => { e with held := held.forget event.source }
    | some choice =>
      { e with held, bank := e.bank.afterChoice (some choice) }.playOn event choice

/-- Ends a voice's note, or leaves it to the pedal. -/
def endVoice (e : Engine) (event : Event) (v : Voice) : Voice :=
  if e.pedal then v.keep else v.release event

/-- Releases the voices that a source holds. -/
def endNote (e : Engine) (event : Event) : Engine :=
  { e with held := e.held.forget event.source }.mapActiveWhere
    (fun v => v.heldBy event.source) (e.endVoice event)

/-- The event of the note that sounds in unison. -/
def soundingEvent? (e : Engine) : Option Event :=
  ((e.bank.voice? 0).filter fun v => v.phase == .held).map fun v => v.event

/-- Puts the note that sounds onto the stack and out of the table. -/
def displace (e : Engine) : Engine :=
  match e.soundingEvent? with
  | none => e
  | some event =>
    { e with
      displaced := e.displaced.push event
      held := e.held.forget event.source }

/-- Starts a note on all voices. -/
def startUnison (e : Engine) (event : Event) : Engine :=
  if e.bank.count = 0 then e
  else
    match e.held.freeSlot? with
    | none => e
    | some slot =>
      { e with held := e.held.put slot event }.displace.mapActive fun v =>
        v.start event e.temperament

/-- Whether the note that sounds in unison is one of `source`. -/
def isSounding (e : Engine) (source : UInt32) : Bool :=
  (e.bank.voice? 0).any fun v => v.owner == some source

/-- Brings a displaced note back on all voices, at the time of an event. -/
def revive (e : Engine) (note : Event) (time : Nat) : Engine :=
  { e with displaced := e.displaced.pop }.mapActive fun v =>
    v.steal (note.moveTo time) e.temperament e.settings.glissando

/-- Ends a note in unison, whether it sounds or waits. -/
def endUnison (e : Engine) (event : Event) : Engine :=
  let e := { e with held := e.held.forget event.source }
  if e.isSounding event.source then
    match e.displaced.top? with
    | some note => e.revive note event.time
    | none => e.mapActiveWhere (fun v => v.phase == .held) (e.endVoice event)
  else { e with displaced := e.displaced.forget event.source }

/-- Moves a held touch. -/
def moveTouch (e : Engine) (event : Event) : Engine :=
  e.mapActiveWhere (fun v => v.heldBy event.source) fun v =>
    v.move event e.temperament

/-- The release of a voice that the pedal kept. -/
def pedalRelease (time : Nat) (v : Voice) : Voice :=
  v.release (Event.noteOff (v.owner.getD 0) v.channel time)

/-- Moves the pedal; when it goes up, the notes that it kept end. -/
def movePedal (e : Engine) (event : Event) : Engine :=
  let e := { e with pedal := event.pressesPedal }
  if event.pressesPedal then e
  else e.mapActiveWhere (fun v => v.phase == .sustained) (pedalRelease event.time)

/-- Ends every note and forgets held and displaced ones. -/
def endAllNotes (e : Engine) (event : Event) : Engine :=
  { e with held := .empty, displaced := .empty }.mapActiveWhere Voice.isBusy fun v =>
    v.release event

end Notes

section Gestures

/-- Whether an event is a mode message: a reserved controller with the value zero. -/
def isMode (number : UInt8) (event : Event) : Bool :=
  event.number == number && event.second == 0.0

/-- Whether a controller is reserved for mode messages. -/
def isReserved (number : UInt8) : Bool :=
  number == allSoundOff || number == allNotesOff

/-- Obeys a mode message; a reserved controller with another value does nothing. -/
def obeyMode (e : Engine) (event : Event) : Engine :=
  if isMode allSoundOff event then e.silence
  else if isMode allNotesOff event then e.endAllNotes event
  else e

/-- Schedules the value of a controller when every note has its channel. -/
def bindAxis (s : Settings) (event : Event) (c : Controls) : Controls :=
  let number := event.number
  if number = s.xController then c.scheduleMod 1 event.second event.time
  else if number = yController then c.scheduleMod 2 event.second event.time
  else if number = s.controllers.mod1 then c.scheduleMod 0 event.second event.time
  else c

/-- Moves a controller. -/
def moveController (e : Engine) (event : Event) : Engine :=
  match e.settings.protocol with
  | .conventional =>
    if isReserved event.number then e.obeyMode event
    else
      match e.settings.controllers.slot? event.number with
      | none => e
      | some slot =>
        e.mapActive fun v => v.mapControls (·.scheduleMod slot event.second event.time)
  | .expressive =>
    if event.channel = mainChannel then
      if isReserved event.number then e.obeyMode event
      else { e with main := bindAxis e.settings event e.main }
    else
      e.mapActiveWhere (fun v => v.heldBy event.source) fun v =>
        v.mapControls (bindAxis e.settings event)
  | .continuousTouch => e

/-- The place of a channel's bend, if there is such a channel. -/
def channelIndex? (channel : UInt8) : Option Nat :=
  if 1 ≤ channel.toNat ∧ channel.toNat ≤ channelCount then some (channel.toNat - 1)
  else none

/-- Schedules a bend for a channel, if there is such a channel. -/
def bendChannel
    (e : Engine)
    (channel : UInt8)
    (bend : Float32)
    (time : Nat) :
    Engine :=
  match channelIndex? channel with
  | none => e
  | some i => { e with channelBends := e.channelBends.modify i (·.schedule bend time) }

/-- Moves the pitch wheel. -/
def bendPitch (e : Engine) (event : Event) : Engine :=
  let bend := Tuning.wheelOffset event.first e.settings.bendRange
  match e.settings.protocol with
  | .conventional =>
    e.mapActive fun v => { v with pitchBend := v.pitchBend.schedule bend event.time }
  | .expressive =>
    if event.channel = mainChannel then
      { e with
        main := { e.main with pitchBend := e.main.pitchBend.schedule bend event.time } }
    else e.bendChannel event.channel bend event.time
  | .continuousTouch => e

/-- Changes the pressure on a note. -/
def pressNote (e : Engine) (event : Event) : Engine :=
  if e.settings.protocol = .conventional then
    e.mapActiveWhere (fun v => v.owner == some event.source) fun v =>
      { v with notePressure := v.notePressure.schedule event.second event.time }
  else e

/-- Schedules a channel pressure. -/
def pressBus (event : Event) (c : Controls) : Controls :=
  { c with channelPressure := c.channelPressure.schedule event.first event.time }

/-- Changes the pressure on a channel. -/
def pressChannel (e : Engine) (event : Event) : Engine :=
  match e.settings.protocol with
  | .conventional => e.mapActive fun v => v.mapControls (pressBus event)
  | .expressive =>
    if event.channel = mainChannel then { e with main := pressBus event e.main }
    else
      e.mapActiveWhere (fun v => v.heldBy event.source) fun v =>
        v.mapControls (pressBus event)
  | .continuousTouch => e

end Gestures

section Events

/-- Performs an event. -/
def perform (e : Engine) (event : Event) : Engine :=
  match event.kind with
  | .noteOn => if e.settings.unison then e.startUnison event else e.startNote event
  | .noteOff => if e.settings.unison then e.endUnison event else e.endNote event
  | .noteUpdate => e.moveTouch event
  | .sustain => e.movePedal event
  | .controller => e.moveController event
  | .pitchBend => e.bendPitch event
  | .notePressure => e.pressNote event
  | .channelPressure => e.pressChannel event
  | .null => e

/-- What there is to say about a new note that finds the table full. -/
def fullTableNotices (event : Event) : List Notice :=
  [.noteDropped event.first event.source]

/-- What there is to say about the note that a new one displaces. -/
def displaceNotices (e : Engine) : List Notice :=
  match e.soundingEvent? with
  | some event => if e.displaced.isFull then [.noteForgotten event.source] else []
  | none => []

/-- What there is to say about an event that is performed. -/
def performNotices (e : Engine) (event : Event) : List Notice :=
  if event.kind ≠ .noteOn then []
  else if e.settings.unison then
    if e.bank.count = 0 then []
    else if e.held.freeSlot?.isNone then fullTableNotices event
    else e.displaceNotices
  else if e.held.freeSlot?.isNone then fullTableNotices event
  else []

end Events

end Engine
end Polyphony
