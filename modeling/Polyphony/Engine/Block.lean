import Polyphony.Engine.Output

/-!
# Processing a block

The host calls the engine once for every block.  The block is as long as the
host asks, but never longer than the longest block or the output buffer.

**Order.** Settings that wait are applied first, even if the block has no
frames.  Then the active voices grow older and drift goals may be drawn; the
events due before the end of the block are performed, each at its own sample and
late ones at the first; the streams are written; and what is still pending is
dropped.  At last the clock moves on by the length of the block.

**Time.** Sample times are counts, so the end of a block may be one that cannot be
counted; what then happens depends on how the program is built.  `processBy` says so,
and `process` has the times beyond all counts instead.  As long as the end of the block
can be counted, the two are the same: `processBy_eq`.
-/

namespace Polyphony
namespace Engine

/-- The number of frames that a block renders. -/
def blockLength (frames : Nat) (out : Buffer) : Nat :=
  min (min frames maxBlock) out.frames

/-- Lets the active voices grow older by a block. -/
def growVoices (e : Engine) (n : Nat) : Engine :=
  e.mapActive fun v => v.grow n

/-- Schedules the goals of a drift draw for the voices that play notes. -/
def scheduleDrift (e : Engine) (goals : List Float32) : Engine :=
  { e with
    bank := e.bank.mapActiveIdx fun id v =>
      match goals[id]? with
      | some goal => { v with drift := v.drift.schedule goal 1 }
      | none => v }

/-- Draws drift goals for the voices that play notes. -/
def drawDrift (e : Engine) : Engine :=
  let (goals, drift) := Drift.goals e.bank.count 0 e.drift
  { e with drift }.scheduleDrift goals

/-- Runs the clock of the drift, if there is any, and draws goals when they are due. -/
def runDrift (e : Engine) (n : Nat) : Engine :=
  if 0.0 < e.settings.drift then
    let moved := { e with drift := e.drift.advance n }
    if e.drift.isDue then moved.drawDrift else moved
  else e

/-- The events due within the next `n` frames, as they wait in the queue. -/
def due (e : Engine) (n : Nat) : List Event :=
  e.queue.dueBefore (e.clock + n)

/-- An event at its time within the block; a late one is at the beginning. -/
def localEvent (e : Engine) (event : Event) : Event :=
  event.moveTo (event.time - e.clock)

/-- Performs the events due before a time. -/
def performBefore (e : Engine) (stop : Nat) : Engine :=
  ((e.queue.dueBefore stop).map e.localEvent).foldl perform
    { e with queue := e.queue.dropBefore stop }

/-- Performs the events due within the next `n` frames. -/
def performDue (e : Engine) (n : Nat) : Engine :=
  e.performBefore (e.clock + n)

/-- Drops the pending changes of every ramp. -/
def dropPending (e : Engine) : Engine :=
  { e with
    bank := e.bank.mapAll Voice.dropPending
    main := e.main.dropPending
    channelBends := e.channelBends.map Ramp.dropPending }

/-- The engine before the events of a block are performed. -/
def prepare (e : Engine) (n : Nat) : Engine :=
  (e.growVoices n).runDrift n

/-- The engine that is ready to render a block, its events performed. -/
def performed (e : Engine) (n : Nat) : Engine :=
  (e.prepare n).performDue n

/-- The engine after a block that ends at a time. -/
def finishAt (e : Engine) (stop : Nat) : Engine :=
  { e.dropPending with clock := stop }

/-- The engine after a block of `n` frames. -/
def finish (e : Engine) (n : Nat) : Engine :=
  e.finishAt (e.clock + n)

/-- Renders a block of `n` frames. -/
def renderBlock (e : Engine) (n : Nat) (out : Buffer) : Engine × Buffer :=
  let (signals, e) := (e.performed n).renderVoices n out.voices
  (e.finish n, out.putVoices signals)

/-- Renders a block of `n` frames that ends at a time. -/
def renderUntil (e : Engine) (n stop : Nat) (out : Buffer) : Engine × Buffer :=
  let (signals, e) := ((e.prepare n).performBefore stop).renderVoices n out.voices
  (e.finishAt stop, out.putVoices signals)

/-- Processes a block into an output buffer; there is no result if the program ends. -/
def processBy
    (o : Overflow)
    (e : Engine)
    (frames : Nat)
    (out : Buffer) :
    Option (Engine × Buffer) :=
  let e := e.adoptAwaited
  let n := blockLength frames out
  if n = 0 then some (e, out)
  else (o.add? e.clock n).map fun stop => e.renderUntil n stop out

/-- Processes a block into an output buffer, at times that can be counted. -/
def process (e : Engine) (frames : Nat) (out : Buffer) : Engine × Buffer :=
  let e := e.adoptAwaited
  let n := blockLength frames out
  if n = 0 then (e, out) else e.renderBlock n out

/-- What there is to say about the events of a list, performed one after the other. -/
def performAllNotices (start : Nat) : List Event → Engine → List Notice
  | [], _ => []
  | event :: events, e =>
    let moved := event.moveTo (event.time - start)
    (if event.time < start then [.lateEvent event.kind event.time start] else [])
      ++ e.performNotices moved
      ++ performAllNotices start events (e.perform moved)

/-- What there is to say about a block. -/
def processNotices (e : Engine) (frames : Nat) (out : Buffer) : List Notice :=
  let n := blockLength frames out
  let adopted := e.adoptAwaited
  e.adoptAwaitedNotices
    ++ (if maxBlock < frames then [.blockLimited frames] else [])
    ++ (if n = 0 then []
        else performAllNotices adopted.clock (adopted.due n) (adopted.prepare n))

end Engine
end Polyphony
