import Polyphony.Attempt
import Polyphony.Event

/-!
# The event queue

A queue of bounded length stands between the player and the engine.  Events go
in at the back in time order and come out at the front.

**Input.** An event is accepted when it is not earlier than the last accepted
one and the queue has room.  A refused event leaves the queue as it is.

**Output.** Because the waiting events are in time order, those due before a
given time are the ones at the front.
-/

namespace Polyphony

/-- Why an event was not accepted; the event is handed back. -/
inductive Refusal
  /-- The queue has no room. -/
  | full (event : Event)
  /-- The event is earlier than the last accepted one. -/
  | outOfOrder (event : Event)
deriving DecidableEq

namespace Refusal

/-- The refused event. -/
def event : Refusal → Event
  | full e => e
  | outOfOrder e => e

/-- What the player is told. -/
def message : Refusal → String
  | full e => "Event queue full, dropped " ++ e.kind.name ++ " at " ++ toString e.time
  | outOfOrder e =>
    "Event " ++ e.kind.name ++ " at " ++ toString e.time
      ++ " is earlier than the last queued event"

end Refusal

/-- The greatest length of a queue; more events do not fit into memory. -/
def maxQueueLength : Nat := Nat.pow 10 9

/-- Events on their way to the engine. -/
structure EventQueue where
  /-- The greatest number of waiting events. -/
  capacity : Nat
  /-- The waiting events, the next one first. -/
  waiting : List Event := []
  /-- The time of the last accepted event. -/
  lastTime : Nat := 0
deriving DecidableEq, Inhabited

namespace EventQueue

/-- An empty queue; it holds at least one event. -/
def empty (capacity : Nat) : EventQueue :=
  { capacity := max capacity 1 }

/-- An empty queue, if it fits into memory. -/
def empty? (capacity : Nat) : Option EventQueue :=
  if capacity ≤ maxQueueLength then some (empty capacity) else none

/-- The number of waiting events. -/
def length (q : EventQueue) : Nat :=
  q.waiting.length

/-- The number of events the queue has room for. -/
def vacancy (q : EventQueue) : Nat :=
  q.capacity - q.length

/-- Whether no event is waiting. -/
def isEmpty (q : EventQueue) : Bool :=
  q.waiting.isEmpty

/-- Accepts an event at the back, or refuses it. -/
def push (q : EventQueue) (e : Event) : Attempt Refusal Unit EventQueue :=
  if e.time < q.lastTime then .error (.outOfOrder e) q
  else if q.capacity ≤ q.length then .error (.full e) q
  else .ok () { q with waiting := q.waiting ++ [e], lastTime := e.time }

/-- The next event. -/
def front? (q : EventQueue) : Option Event :=
  q.waiting.head?

/-- The queue after its next event has left. -/
def pop (q : EventQueue) : EventQueue :=
  { q with waiting := q.waiting.tail }

/-- The queue after all waiting events have been dropped. -/
def flush (q : EventQueue) : EventQueue :=
  { q with waiting := [] }

/-- The events at the front that are due before a time. -/
def dueBefore (q : EventQueue) (time : Nat) : List Event :=
  q.waiting.takeWhile fun e => e.time < time

/-- The queue after the events due before a time have left. -/
def dropBefore (q : EventQueue) (time : Nat) : EventQueue :=
  { q with waiting := q.waiting.dropWhile fun e => e.time < time }

/-- An accepted event is not too early, finds room and waits behind all others. -/
theorem eq_of_push
    {q r : EventQueue} {e : Event}
    (h : q.push e = .ok () r) :
    q.lastTime ≤ e.time
      ∧ q.length < q.capacity
      ∧ r = { q with waiting := q.waiting ++ [e], lastTime := e.time } := by
  unfold push at h
  split at h
  case isTrue => cases h
  case isFalse hlate =>
    split at h
    case isTrue => cases h
    case isFalse hroom =>
      cases h
      exact ⟨Nat.not_lt.1 hlate, Nat.not_le.1 hroom, rfl⟩

theorem waiting_of_push
    {q r : EventQueue} {e : Event}
    (h : q.push e = .ok () r) :
    r.waiting = q.waiting ++ [e] := by
  obtain ⟨-, -, rfl⟩ := eq_of_push h
  rfl

/-- A refused event leaves the queue as it is. -/
theorem harmless_push (q : EventQueue) (e : Event) :
    (q.push e).Harmless q := by
  unfold push
  split
  · exact .error _
  · split
    · exact .error _
    · exact .ok _ _

/-- No event is lost or changed when the due ones leave. -/
theorem dueBefore_append_dropBefore (q : EventQueue) (time : Nat) :
    q.dueBefore time ++ (q.dropBefore time).waiting = q.waiting := by
  simp [dueBefore, dropBefore]

end EventQueue
end Polyphony
