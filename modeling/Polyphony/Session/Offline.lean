import Polyphony.Recording.Basic
import Polyphony.Session.Basic

/-!
# Rendering a script

A script is a list of events whose times are counted from the beginning of the
rendering.  The host renders it block by block, as fast as it can, and records
everything.  Each event is sent just before the block in which it falls, so that
a script may be longer than the queue.

**Result.** The recording and the session after it; or the first refusal, with
the session as it was then.  Events at or after the end are not sent.

**Time.** The times of the events and the ends of the blocks may be such that cannot be
counted; what then happens depends on how the program is built.  `renderScriptBy` says
so, and `renderScript` has the times beyond all counts instead.
-/

namespace Polyphony

/-- A rendering in progress. -/
structure Rendering where
  /-- The session. -/
  session : Session
  /-- The events not sent yet. -/
  script : List Event
  /-- What has been recorded. -/
  recording : Recording
  /-- The frames rendered so far. -/
  rendered : Nat := 0
  /-- The output buffer, as the last block left it. -/
  out : Buffer
  /-- What there was to say so far. -/
  notices : List Notice := []

/-- A rendering that ended early. -/
structure Interruption where
  /-- Why an event was not accepted. -/
  refusal : Refusal
  /-- The session at that time. -/
  session : Session
  /-- What there was to say until then. -/
  notices : List Notice := []

namespace Rendering

/-- Sends events in order, each moved on by a time; a refusal ends it. -/
def sendAll (start : Nat) : List Event → Session → Except Interruption Session
  | [], s => .ok s
  | event :: events, s =>
    match s.send (event.moveTo (start + event.time)) with
    | .error refusal s => .error { refusal, session := s }
    | .ok () s => sendAll start events s

/-- The events at the front of a script that fall before a time. -/
def near (time : Nat) (script : List Event) : List Event :=
  script.takeWhile fun event => event.time < time

/-- A script without the events at its front that fall before a time. -/
def far (time : Nat) (script : List Event) : List Event :=
  script.dropWhile fun event => event.time < time

/-- Records a block that has been processed, once its events had been sent. -/
def record
    (s : Session)
    (script : List Event)
    (n : Nat)
    (r : Rendering) :
    Engine × Buffer → Rendering
  | (engine, out) =>
    match r with
    | { recording, rendered, out := before, notices, .. } =>
      { session := s.withEngine engine
        script
        recording := recording.append out n
        rendered := rendered + n
        out
        notices := notices ++ s.engine.processNotices n before }

/-- Sends events in order; there is no result if the program ends. -/
def sendAllBy (o : Overflow) (start : Nat) :
    List Event → Session → Option (Except Interruption Session)
  | [], s => some (.ok s)
  | event :: events, s =>
    match o.add? start event.time with
    | none => none
    | some time =>
      match s.send (event.moveTo time) with
      | .error refusal s => some (.error { refusal, session := s })
      | .ok () s => sendAllBy o start events s

/-- Renders one block, once its events have been sent, and records it. -/
def recordBlock
    (s : Session)
    (script : List Event)
    (n : Nat)
    (r : Rendering) :
    Rendering :=
  record s script n r (s.engine.process n r.out)

/-- Renders one block: sends the events that fall into it, then records it. -/
def stepBlock (start n : Nat) (r : Rendering) : Except Interruption Rendering :=
  let stop := r.rendered + n
  match sendAll start (near stop r.script) r.session with
  | .error i => .error { i with notices := r.notices }
  | .ok s => .ok (recordBlock s (far stop r.script) n r)

/-- Renders one block; there is no result if the program ends. -/
def stepBlockBy
    (o : Overflow)
    (start n : Nat)
    (r : Rendering) :
    Option (Except Interruption Rendering) :=
  let stop := r.rendered + n
  match sendAllBy o start (near stop r.script) r.session with
  | none => none
  | some (.error i) => some (.error { i with notices := r.notices })
  | some (.ok s) =>
    (s.engine.processBy o n r.out).map fun processed =>
      .ok (record s (far stop r.script) n r processed)

/-- The number of blocks in which `total` frames are rendered. -/
def blockCount (total block : Nat) : Nat :=
  total / block + if total % block = 0 then 0 else 1

/-- Renders a number of blocks, of which one at the end of the `total` frames is shorter. -/
def runBlocks (start total block : Nat) : Nat → Rendering → Except Interruption Rendering
  | 0, r => .ok r
  | blocks + 1, r =>
    match stepBlock start (min block (total - r.rendered)) r with
    | .error i => .error i
    | .ok r => runBlocks start total block blocks r

/-- Renders a number of blocks; there is no result if the program ends. -/
def runBlocksBy (o : Overflow) (start total block : Nat) :
    Nat → Rendering → Option (Except Interruption Rendering)
  | 0, r => some (.ok r)
  | blocks + 1, r =>
    match stepBlockBy o start (min block (total - r.rendered)) r with
    | none => none
    | some (.error i) => some (.error i)
    | some (.ok r) => runBlocksBy o start total block blocks r

/-- What there is to say when everything has been rendered. -/
def finish (r : Rendering) : Rendering :=
  { r with notices := r.notices ++ [.scriptRendered r.rendered] }

end Rendering

namespace Session

/-- The rendering of a script before its first block. -/
def beginRendering (s : Session) (script : List Event) (block : Nat) : Rendering :=
  { session := s
    script
    recording := Recording.empty s.engine.capacity s.engine.sampleRate
    out := Buffer.silent s.engine.capacity block }

/-- Renders a script over `total` frames in blocks of a length, at times that can be counted. -/
def renderScript
    (s : Session)
    (script : List Event)
    (total block : Nat) :
    Except Interruption Rendering :=
  let block := renderedBlock block
  (Rendering.runBlocks s.engine.clock total block (Rendering.blockCount total block)
    (s.beginRendering script block)).map Rendering.finish

/-- Renders a script; there is no result if the program ends. -/
def renderScriptBy
    (o : Overflow)
    (s : Session)
    (script : List Event)
    (total block : Nat) :
    Option (Except Interruption Rendering) :=
  let block := renderedBlock block
  (Rendering.runBlocksBy o s.engine.clock total block (Rendering.blockCount total block)
    (s.beginRendering script block)).map fun outcome => outcome.map Rendering.finish

/-- Renders a script, if the recording fits into memory and the program does not end. -/
def renderScript?
    (o : Overflow)
    (s : Session)
    (script : List Event)
    (total block : Nat) :
    Option (Except Interruption Rendering) :=
  if Recording.HasRoom s.engine.capacity total then s.renderScriptBy o script total block
  else none

end Session
end Polyphony
