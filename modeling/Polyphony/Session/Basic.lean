import Polyphony.Engine.Block

/-!
# Sessions: a host with its engine

A session is what a host holds: the engine, the settings it last had accepted,
and the counter that gives every note a source of its own.

**Playback.** The host may hand the engine over to be rendered at the pace of
the clock, one block per period.  Until it is taken back only events and
settings still reach it.  The pace is set by the sample rate of the session, and
an engine whose period is beyond all clocks never comes back.
-/

namespace Polyphony

/-- The length of an event queue, unless another one is asked for. -/
def defaultQueueCapacity : Nat := 1024

/-- Where the engine of a session is. -/
inductive Transport
  /-- The host has it. -/
  | stopped
  /-- It is being rendered, in blocks of a length. -/
  | playing (block : Nat)
  /-- It did not come back. -/
  | lost
deriving DecidableEq

/-- A host with its engine. -/
structure Session where
  /-- The engine. -/
  engine : Engine
  /-- The settings last accepted. -/
  settings : Settings := {}
  /-- The source of the next note. -/
  nextSource : UInt32 := 1
  /-- Samples per second, as they were when the session began. -/
  sampleRate : Float32
  /-- Where the engine is. -/
  transport : Transport := .stopped

namespace Session

section Hosting

/-- Opens a session with an engine of `capacity` voices behind an event queue. -/
def start
    (capacity : Nat)
    (sampleRate : Float32)
    (queue : EventQueue)
    (library : Library) :
    Except EngineFault Session :=
  (Engine.build capacity sampleRate queue {} library).map fun engine =>
    { engine := engine.attachMailbox, sampleRate }

/-- What there is to say about a session that has been opened. -/
def startNotices (capacity : Nat) (sampleRate : Float32) : List Notice :=
  [.engineReady capacity sampleRate]

/-- The session with its engine changed. -/
def withEngine (s : Session) (engine : Engine) : Session :=
  { s with engine }

/-- Posts settings to the engine; accepted ones become those of the session. -/
def configure (s : Session) (next : Settings) : Attempt SettingsFault Unit Session :=
  match s.engine.post? next with
  | none => .ok () { s with settings := next }
  | some (.error fault engine) => .error fault { s with engine }
  | some (.ok () engine) => .ok () { s with engine, settings := next }

/-- What there is to say about accepted settings. -/
def configureNotices (next : Settings) : List Notice :=
  [.settingsPosted next.voices next.protocol next.unison]

/-- Sends an event to the engine. -/
def send (s : Session) (event : Event) : Attempt Refusal Unit Session :=
  (s.engine.push event).within s.withEngine

/-- The source after a source; zero is left out. -/
def sourceAfter (source : UInt32) : UInt32 :=
  if source + 1 = 0 then 1 else source + 1

/-- Starts a note under a source of its own, which ends it later. -/
def startNote
    (s : Session)
    (channel : UInt8)
    (note velocity : Float32)
    (time : Nat) :
    Attempt Refusal UInt32 Session :=
  match s.send (Event.noteOn s.nextSource channel note velocity time) with
  | .error refusal s => .error refusal s
  | .ok () sent => .ok s.nextSource { sent with nextSource := sourceAfter s.nextSource }

/-- Ends a note by its source. -/
def endNote
    (s : Session)
    (source : UInt32)
    (channel : UInt8)
    (time : Nat) :
    Attempt Refusal Unit Session :=
  s.send (Event.noteOff source channel time)

/-- A session that is opened has an engine that was built for it, with a mailbox. -/
theorem exists_build_of_start
    {capacity : Nat} {sampleRate : Float32} {queue : EventQueue} {library : Library} {s : Session}
    (h : start capacity sampleRate queue library = .ok s) :
    ∃ e, Engine.build capacity sampleRate queue {} library = .ok e
      ∧ s = { engine := e.attachMailbox, sampleRate } := by
  unfold start at h
  cases hbuild : Engine.build capacity sampleRate queue {} library with
  | error fault =>
      rw [hbuild] at h
      cases h
  | ok e =>
      rw [hbuild] at h
      cases h
      exact ⟨e, rfl, rfl⟩

/-- Settings that are accepted become those of the session and change the mailbox alone. -/
theorem eq_of_configure
    {s after : Session} {next : Settings}
    (h : s.configure next = .ok () after) :
    ∃ mailbox, after = { s with engine := { s.engine with mailbox }, settings := next } := by
  cases hbox : s.engine.mailbox with
  | none =>
      simp only [configure, Engine.post?, hbox, Option.map_none] at h
      cases h
      exact ⟨s.engine.mailbox, rfl⟩
  | some mailbox =>
      cases hpost : mailbox.post next with
      | error fault left =>
          simp [configure, Engine.post?, hbox, hpost, Attempt.within] at h
      | ok _ mailbox =>
          simp only [configure, Engine.post?, hbox, hpost, Option.map_some, Attempt.within] at h
          cases h
          exact ⟨some mailbox, rfl⟩

/-- Settings that are refused leave the session as it is. -/
theorem harmless_configure (s : Session) (next : Settings) :
    (s.configure next).Harmless s := by
  unfold configure
  split
  case h_1 => exact .ok _ _
  case h_2 fault engine hpost =>
    rw [Engine.harmless_post? hpost fault engine rfl]
    exact .error _
  case h_3 => exact .ok _ _

/-- An event that is refused leaves the session as it is. -/
theorem harmless_send (s : Session) (event : Event) :
    (s.send event).Harmless s :=
  (s.engine.harmless_push event).within s.withEngine

/-- A note that is refused leaves the session as it is, and uses up no source. -/
theorem harmless_startNote
    (s : Session)
    (channel : UInt8) (note velocity : Float32) (time : Nat) :
    (s.startNote channel note velocity time).Harmless s := by
  unfold startNote
  split
  case h_1 refusal left hsend =>
    rw [s.harmless_send _ refusal left hsend]
    exact .error _
  case h_2 => exact .ok _ _

/-- An event that is sent is one that the engine accepts. -/
theorem exists_push_of_send
    {s after : Session} {event : Event}
    (h : s.send event = .ok () after) :
    ∃ engine, s.engine.push event = .ok () engine ∧ after = s.withEngine engine := by
  unfold send at h
  cases hpush : s.engine.push event with
  | error refusal left =>
      rw [hpush] at h
      cases h
  | ok _ engine =>
      rw [hpush] at h
      cases h
      exact ⟨engine, rfl, rfl⟩

end Hosting

section Playback

/-- The block length that is rendered when another one is asked for. -/
def renderedBlock (block : Nat) : Nat :=
  max 1 (min block maxBlock)

/-- Whether a block period is beyond all clocks: two to the power 64 seconds or more. -/
def isEndless (sampleRate : Float32) (block : Nat) : Bool :=
  sampleRate * 18446744073709551616.0 ≤ Float32.ofNat (renderedBlock block)

/-- Hands the engine over to be rendered in blocks of a length. -/
def play (s : Session) (block : Nat) : Session :=
  { s with transport := .playing block }

/-- Whether the engine is being rendered. -/
def isPlaying (s : Session) : Bool :=
  match s.transport with
  | .playing _ => true
  | _ => false

/-- The clock of the engine, while it is being rendered. -/
def playbackClock? (s : Session) : Option Nat :=
  if s.isPlaying then some s.engine.clock else none

/-- Whether the host has the engine. -/
def hasEngine (s : Session) : Bool :=
  s.transport == .stopped

/-- The session after a number of blocks have been rendered at the pace of the clock. -/
def renderBlocks (s : Session) : Nat → Session
  | 0 => s
  | blocks + 1 =>
    match s.transport with
    | .playing block =>
      let n := renderedBlock block
      let out := Buffer.silent s.engine.capacity n
      renderBlocks (s.withEngine (s.engine.process n out).1) blocks
    | _ => s

/-- Takes the engine back, unless its period is endless. -/
def stop (s : Session) : Session :=
  match s.transport with
  | .playing block =>
    { s with transport := if isEndless s.sampleRate block then .lost else .stopped }
  | _ => s

/-- What there is to say when the engine is handed over. -/
def playNotices (block : Nat) : List Notice :=
  [.playbackStarted block]

/-- What there is to say when the engine is taken back. -/
def stopNotices (s : Session) : List Notice :=
  if s.isPlaying then [.playbackStopped] else []

end Playback

end Session
end Polyphony
