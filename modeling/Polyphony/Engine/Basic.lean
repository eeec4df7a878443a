import Polyphony.Drift
import Polyphony.EventQueue
import Polyphony.Notes.Displaced
import Polyphony.Notes.Held
import Polyphony.Notice
import Polyphony.Settings.Mailbox
import Polyphony.Voice.Bank

/-!
# The engine and its settings

The engine turns events from its queue into control signals.  This module holds
its state, how it is built, and everything that changes it between two blocks.

**Settings.** New settings wait until the next block: the newest ones in the
mailbox, or else those staged directly.  When they are applied, settings at
fault and a tuning out of range keep their earlier values, and no more voices
play than there are.  A change in the number of voices or in unison silences the
engine.

**Silence.** Silencing forgets every note and drops gates and pressures to zero
at once.  Pitches, modulations, and the bends of voices and of the shared bus
stay where they are; the bends of the channels go to zero.
-/

namespace Polyphony

/-- Why an engine was not built or changed. -/
inductive EngineFault
  /-- The sample rate is not a positive finite number. -/
  | invalidSampleRate (rate : Float32)
  /-- There are more voices than allowed. -/
  | invalidCapacity (voices : Nat)
deriving DecidableEq

namespace EngineFault

/-- What the host is told. -/
def message : EngineFault → String
  | invalidSampleRate rate => "Invalid sample rate: " ++ Binary32.plainText rate
  | invalidCapacity voices => "Invalid voice capacity: " ++ toString voices

end EngineFault

/-- How an engine presents itself to a host. -/
structure Description where
  /-- The name. -/
  name : String
  /-- A name where there is little room. -/
  shortName : String
  /-- The number of streams of a voice. -/
  streams : Nat
deriving DecidableEq

/-- The whole state of an engine. -/
structure Engine where
  /-- The applied settings. -/
  settings : Settings := {}
  /-- Whether the sustain pedal is down. -/
  pedal : Bool := false
  /-- The sample time at which the next block begins. -/
  clock : Nat := 0
  /-- The shift of every pitch by the master tuning, in octaves. -/
  tuningShift : Float32 := 0.0
  /-- The voices. -/
  bank : Bank
  /-- The controls of the main channel, shared by all voices. -/
  main : Controls
  /-- The bend of each channel, the one of channel one first. -/
  channelBends : List Ramp
  /-- The notes whose keys are down. -/
  held : HeldNotes := .empty
  /-- The notes that wait below the sounding one in unison. -/
  displaced : DisplacedNotes := .empty
  /-- The events to come. -/
  queue : EventQueue
  /-- The mailbox for settings, once one is attached. -/
  mailbox : Option Mailbox := none
  /-- Settings that wait for the next block. -/
  staged : Option Settings := none
  /-- The drift of the pitch. -/
  drift : Drift
  /-- The pitches of the notes. -/
  temperament : Temperament := {}
  /-- Samples per second. -/
  sampleRate : Float32
  /-- The functions of libraries that it uses. -/
  library : Library

namespace Engine

section Building

/-- Whether a number can be a sample rate. -/
def isSampleRate (rate : Float32) : Bool :=
  rate.isFinite && 0.0 < rate

/-- What there is to say about a sample rate. -/
def sampleRateNotices (rate : Float32) : List Notice :=
  if isSampleRate rate then [] else [.sampleRateRefused rate]

/-- Sets the glide time of every ramp as the settings and its role ask. -/
def distributeGlides (e : Engine) : Engine :=
  let glide := e.settings.glide
  let regulate (c : Controls) := c.withGlides glide e.settings.gestureGlide driftSeconds
  { e with
    bank := e.bank.mapAll fun v => v.mapControls regulate
    main := regulate e.main
    channelBends := e.channelBends.map fun r => r.withGlide glide }

/-- An engine at rest. -/
def idle
    (capacity : Nat)
    (sampleRate : Float32)
    (queue : EventQueue)
    (temperament : Temperament)
    (library : Library) :
    Engine :=
  distributeGlides
    { bank := Bank.idle capacity sampleRate
      main := Controls.resting sampleRate
      channelBends := List.replicate channelCount { sampleRate }
      queue
      drift := Drift.start library sampleRate
      temperament
      sampleRate
      library }

/-- Builds an engine with `capacity` voices, none of which plays notes yet. -/
def build
    (capacity : Nat)
    (sampleRate : Float32)
    (queue : EventQueue)
    (temperament : Temperament)
    (library : Library) :
    Except EngineFault Engine :=
  if !isSampleRate sampleRate then .error (.invalidSampleRate sampleRate)
  else if maxVoices < capacity then .error (.invalidCapacity capacity)
  else .ok (idle capacity sampleRate queue temperament library)

/-- The number of voices. -/
def capacity (e : Engine) : Nat :=
  e.bank.capacity

/-- Every engine presents itself alike. -/
def description : Description :=
  { name := "Events to signals", shortName := "e2s", streams := streamCount }

end Building

section Hosting

/-- Gives the engine a new, empty mailbox in place of an earlier one. -/
def attachMailbox (e : Engine) : Engine :=
  { e with mailbox := some .empty }

/-- Posts settings to the mailbox, if one is attached. -/
def post? (e : Engine) (s : Settings) : Option (Attempt SettingsFault Unit Engine) :=
  e.mailbox.map fun m => (m.post s).within fun m => { e with mailbox := some m }

/-- Stages settings for the next block, in place of those staged before. -/
def stage (e : Engine) (s : Settings) : Engine :=
  { e with staged := some s }

/-- Accepts an event into the queue, or refuses it. -/
def push (e : Engine) (event : Event) : Attempt Refusal Unit Engine :=
  (e.queue.push event).within fun queue => { e with queue }

/-- Changes the sample rate of everything. -/
def withSampleRate (e : Engine) (rate : Float32) : Attempt EngineFault Unit Engine :=
  if isSampleRate rate then
    .ok () (distributeGlides
      { e with
        sampleRate := rate
        bank := e.bank.withSampleRate rate
        main := e.main.withSampleRate rate
        channelBends := e.channelBends.map fun r => r.withSampleRate rate
        drift := e.drift.withSampleRate rate })
  else .error (.invalidSampleRate rate) e

/-- Changes the pitches of the notes to come. -/
def withTemperament (e : Engine) (temperament : Temperament) : Engine :=
  { e with temperament }

/-- Moves the clock against which events are timed. -/
def withClock (e : Engine) (clock : Nat) : Engine :=
  { e with clock }

/-- Silences everything: forgets every note and drops pressures to zero. -/
def silence (e : Engine) : Engine :=
  { e with
    held := .empty
    displaced := .empty
    bank := (e.bank.mapAll fun v => v.vacate.dropPending.mute).rewind
    main := e.main.dropPending.mute
    channelBends := e.channelBends.map Ramp.toZero }

/-- Drops the events to come and returns to silence. -/
def reset (e : Engine) : Engine :=
  { e.silence with
    queue := e.queue.flush
    pedal := false
    drift := e.drift.restart }

/-- What there is to say about a reset. -/
def resetNotices (e : Engine) : List Notice :=
  if 0 < e.queue.length then [.eventsDropped e.queue.length] else []

/-- The state of the voices and the displaced notes, one notice each. -/
def survey (e : Engine) : List Notice :=
  .voiceList
    :: e.bank.active.mapIdx (fun id v => .voiceState id v.toTenancy)
    ++ e.displaced.inOrder.map fun n => .displacedNote n.source n.first

/-- A refused event leaves the engine as it is. -/
theorem harmless_push (e : Engine) (event : Event) :
    (e.push event).Harmless e :=
  (e.queue.harmless_push event).within fun queue => { e with queue }

/-- Refused settings leave the engine as it is. -/
theorem harmless_post?
    {e : Engine} {s : Settings} {posted : Attempt SettingsFault Unit Engine}
    (h : e.post? s = some posted) :
    posted.Harmless e := by
  obtain ⟨m, hm, rfl⟩ := Option.map_eq_some_iff.1 h
  have hsame : { e with mailbox := some m } = e := by
    rw [← hm]
  have hposted := (m.harmless_post s).within fun m => { e with mailbox := some m }
  rwa [hsame] at hposted

/-- A refused sample rate leaves the engine as it is. -/
theorem harmless_withSampleRate (e : Engine) (rate : Float32) :
    (e.withSampleRate rate).Harmless e := by
  unfold withSampleRate
  split
  · exact .ok _ _
  · exact .error _

end Hosting

section Adopting

/-- The settings that wait for the next block. -/
def awaited? (e : Engine) : Option Settings :=
  (e.mailbox.bind Mailbox.newest?).or e.staged

/-- The engine after the waiting settings have been taken. -/
def taken (e : Engine) : Engine :=
  { e with mailbox := e.mailbox.map Mailbox.collected, staged := none }

/-- The master tuning after settings without fault have asked for one. -/
def admittedTuning (e : Engine) (hz : Float32) : Float32 :=
  if (Tuning.masterOffset e.library.log2 hz).isSome then hz else e.settings.masterTune

/-- The settings as they are applied when `next` is asked for. -/
def admitted (e : Engine) (next : Settings) : Settings :=
  let sound := next.repaired e.settings
  { sound with
    voices := min sound.voices e.capacity
    masterTune := e.admittedTuning sound.masterTune }

/-- Whether a change of settings silences the engine. -/
def changesNotes (old new : Settings) : Bool :=
  new.voices != old.voices || new.unison != old.unison

/-- Whether a change of settings turns the drift on. -/
def startsDrift (old new : Settings) : Bool :=
  0.0 < new.drift && old.drift == 0.0

/-- The engine with the settings that it admits of those asked for. -/
def adopt (e : Engine) (next : Settings) : Engine :=
  let new := e.admitted next
  let offset := Tuning.masterOffset e.library.log2 (next.repaired e.settings).masterTune
  let changed := distributeGlides
    { e with
      settings := new
      bank := e.bank.withCount new.voices
      tuningShift := offset.getD e.tuningShift
      drift := if startsDrift e.settings new then e.drift.restart else e.drift }
  if changesNotes e.settings new then changed.silence else changed

/-- What there is to say about settings that are applied. -/
def adoptNotices (e : Engine) (next : Settings) : List Notice :=
  let sound := next.repaired e.settings
  let new := e.admitted next
  ((next.repairs e.settings).map fun (fault, kept) => .settingKept fault kept)
    ++ (if new.voices = sound.voices then []
        else [.voicesLimited sound.voices new.voices])
    ++ (if (Tuning.masterOffset e.library.log2 sound.masterTune).isSome then []
        else [.tuningKept sound.masterTune])

/-- Applies the settings that wait, if there are any. -/
def adoptAwaited (e : Engine) : Engine :=
  match e.awaited? with
  | some next => e.taken.adopt next
  | none => e

/-- What there is to say about the settings that wait. -/
def adoptAwaitedNotices (e : Engine) : List Notice :=
  match e.awaited? with
  | some next => e.adoptNotices next
  | none => []

end Adopting

end Engine
end Polyphony
