import Polyphony.Proofs.Session.Schedule

/-!
# Sending events in order

An event that is not earlier than the one before it is accepted if there is room, and
the first one that is earlier is refused.

**Results.**
* `exists_earlier_of_not_chronological`: events that are not in order have a first one
  that is out of order.
* `sendAll_eq_ok`, `sendAll_eq_error`: events in order are accepted if there is room for
  all of them, and the first one out of order is refused.
* `journal_of_sendAll`: a journal notes as accepted what was sent.
-/

namespace Polyphony

/-- No event is earlier than one before it. -/
def Chronological (events : List Event) : Prop :=
  events.Pairwise fun a b => a.time ≤ b.time

instance (events : List Event) : Decidable (Chronological events) :=
  inferInstanceAs (Decidable (events.Pairwise _))

section Chronology

variable {events front back : List Event} {last event : Event}

theorem Chronological.sublist
    (h : Chronological back)
    (hsub : events.Sublist back) :
    Chronological events :=
  List.Pairwise.sublist hsub h

/-- An event that is not earlier than the last one may follow it. -/
theorem Chronological.concat
    (h : Chronological (front ++ [last]))
    (hle : last.time ≤ event.time) :
    Chronological (front ++ [last] ++ [event]) := by
  refine List.pairwise_append.2 ⟨h, List.pairwise_singleton _ _, fun a ha b hb => ?_⟩
  obtain rfl := List.mem_singleton.1 hb
  rcases List.mem_append.1 ha with ha | ha
  · exact Nat.le_trans ((List.pairwise_append.1 h).2.2 a ha last List.mem_cons_self) hle
  · obtain rfl := List.mem_singleton.1 ha
    exact hle

/-- Among events that are not in order there is a first one that is earlier than the one before it. -/
theorem exists_earlier_of_not_chronological
    (h : ¬ Chronological events) :
    ∃ front last event back, events = front ++ last :: event :: back
      ∧ Chronological (front ++ [last])
      ∧ event.time < last.time := by
  induction events using List.reverseRecOn with
  | nil => exact absurd List.Pairwise.nil h
  | append_singleton events next ih =>
      by_cases hsorted : Chronological events
      case neg =>
        obtain ⟨front, last, event, back, rfl, hfront, hlt⟩ := ih hsorted
        exact ⟨front, last, event, back ++ [next], by simp, hfront, hlt⟩
      case pos =>
        rcases List.eq_nil_or_concat events with rfl | ⟨front, last, rfl⟩
        · exact absurd (List.pairwise_singleton _ _) h
        · rw [List.concat_eq_append] at hsorted h
          refine ⟨front, last, next, [], by simp, hsorted, Nat.lt_of_not_le fun hle => ?_⟩
          exact h (hsorted.concat hle)

end Chronology

namespace EventQueue

section Pushes

variable {q : EventQueue}

/-- A queue with more events behind those that wait. -/
def extended (q : EventQueue) (events : List Event) : EventQueue :=
  { q with
    waiting := q.waiting ++ events
    lastTime := (events.getLast?.map Event.time).getD q.lastTime }

theorem extended_nil (q : EventQueue) :
    q.extended [] = q := by
  unfold extended
  rw [List.append_nil]
  rfl

theorem extended_cons (q : EventQueue) (event : Event) (events : List Event) :
    (q.extended [event]).extended events = q.extended (event :: events) := by
  unfold extended
  cases events using List.reverseRecOn with
  | nil => simp
  | append_singleton events last =>
      rw [← List.cons_append, List.getLast?_concat, List.getLast?_concat]
      simp

theorem lastTime_extended_concat (q : EventQueue) (events : List Event) (last : Event) :
    (q.extended (events ++ [last])).lastTime = last.time := by
  unfold extended
  rw [List.getLast?_concat]
  rfl

theorem lastTime_extended_le
    {events : List Event} {time : Nat}
    (hlast : q.lastTime ≤ time)
    (h : ∀ event ∈ events, event.time ≤ time) :
    (q.extended events).lastTime ≤ time := by
  cases events using List.reverseRecOn with
  | nil => exact hlast
  | append_singleton events last =>
      rw [lastTime_extended_concat]
      exact h last (List.mem_append_right _ List.mem_cons_self)

end Pushes

end EventQueue

namespace Session

section Sends

variable {s : Session} {event : Event}

/-- A session after its engine has accepted events. -/
def withSent (s : Session) (events : List Event) : Session :=
  s.withEngine { s.engine with queue := s.engine.queue.extended events }

theorem withSent_nil (s : Session) :
    s.withSent [] = s := by
  unfold withSent
  rw [EventQueue.extended_nil]
  rfl

theorem withSent_cons (s : Session) (event : Event) (events : List Event) :
    (s.withSent [event]).withSent events = s.withSent (event :: events) :=
  congrArg (fun queue => s.withEngine { s.engine with queue })
    (s.engine.queue.extended_cons event events)

/-- An event is refused if it comes too early or finds no room, and else it is sent. -/
theorem send_eq (s : Session) (event : Event) :
    s.send event =
      if event.time < s.engine.queue.lastTime then .error (.outOfOrder event) s
      else if s.engine.queue.capacity ≤ s.engine.queue.length then .error (.full event) s
      else .ok () (s.withSent [event]) := by
  unfold send Engine.push EventQueue.push
  split
  · rfl
  · split <;> rfl

theorem send_eq_ok
    (hlast : s.engine.queue.lastTime ≤ event.time)
    (hroom : s.engine.queue.length < s.engine.queue.capacity) :
    s.send event = .ok () (s.withSent [event]) := by
  rw [send_eq, if_neg (Nat.not_lt.2 hlast), if_neg (Nat.not_le.2 hroom)]

theorem send_eq_error
    (hearly : event.time < s.engine.queue.lastTime) :
    s.send event = .error (.outOfOrder event) s := by
  rw [send_eq, if_pos hearly]

end Sends

end Session

namespace Rendering

section Sent

variable {start : Nat} {s after : Session} {events : List Event}

/-- Events in order are accepted if there is room for all of them. -/
theorem sendAll_eq_ok
    (hsorted : Chronological events)
    (hlast : ∀ event ∈ events, s.engine.queue.lastTime ≤ start + event.time)
    (hroom : s.engine.queue.length + events.length ≤ s.engine.queue.capacity) :
    sendAll start events s = .ok (s.withSent (events.map (delayed start))) := by
  induction events generalizing s with
  | nil =>
      rw [List.map_nil, Session.withSent_nil]
      rfl
  | cons event events ih =>
      obtain ⟨hfirst, hsorted⟩ := List.pairwise_cons.1 hsorted
      rw [List.length_cons] at hroom
      have hsend : s.send (delayed start event) = .ok () (s.withSent [delayed start event]) :=
        Session.send_eq_ok (hlast event List.mem_cons_self) (by omega)
      have hroom' :
          (s.withSent [delayed start event]).engine.queue.length + events.length
            ≤ s.engine.queue.capacity := by
        show (s.engine.queue.waiting ++ [_]).length + events.length ≤ s.engine.queue.capacity
        rw [List.length_append, List.length_singleton]
        unfold EventQueue.length at hroom
        omega
      have hrest := ih hsorted
        (fun next hnext => Nat.add_le_add_left (hfirst next hnext) start) hroom'
      rw [List.map_cons, ← Session.withSent_cons, ← hrest]
      unfold delayed at hsend ⊢
      rw [sendAll, hsend]

/-- The first event that is earlier than the one before it is refused. -/
theorem sendAll_eq_error
    {front : List Event} {last event : Event}
    (hsorted : Chronological (front ++ [last]))
    (hlast : ∀ event ∈ front ++ [last], s.engine.queue.lastTime ≤ start + event.time)
    (hroom : s.engine.queue.length + (front ++ [last]).length ≤ s.engine.queue.capacity)
    (hlt : event.time < last.time)
    (back : List Event) :
    ∃ i, sendAll start (front ++ last :: event :: back) s = .error i
      ∧ i.refusal = .outOfOrder (delayed start event) := by
  have hsplit : front ++ last :: event :: back = (front ++ [last]) ++ event :: back := by
    simp
  have hearly :
      start + event.time
        < (s.engine.queue.extended ((front ++ [last]).map (delayed start))).lastTime := by
    rw [List.map_append, List.map_singleton, EventQueue.lastTime_extended_concat]
    exact Nat.add_lt_add_left hlt start
  have hsend :
      (s.withSent ((front ++ [last]).map (delayed start))).send
          (event.moveTo (start + event.time))
        = .error (.outOfOrder (delayed start event))
            (s.withSent ((front ++ [last]).map (delayed start))) :=
    Session.send_eq_error hearly
  rw [hsplit, sendAll_append, sendAll_eq_ok hsorted hlast hroom, Except.bind, sendAll, hsend]
  exact ⟨_, rfl, rfl⟩

/-- A journal notes as accepted what was sent. -/
theorem journal_of_sendAll
    (h : sendAll start events s = .ok after)
    (accepted : List Event) (deliveries : List Delivery) :
    (events.map (sending start)).foldl Journal.record { engine := s.engine, accepted, deliveries }
      = { engine := after.engine
          accepted := accepted ++ events.map (delayed start)
          deliveries } := by
  induction events generalizing s accepted with
  | nil =>
      cases h
      simp
  | cons event events ih =>
      obtain ⟨sent, hsend, hrest⟩ := exists_send_of_sendAll h
      obtain ⟨engine, hpush, rfl⟩ := Session.exists_push_of_send hsend
      have hrecord :
          Journal.record { engine := s.engine, accepted, deliveries } (sending start event)
            = { engine, accepted := accepted ++ [delayed start event], deliveries } := by
        simp [Journal.record, sending, Engine.operate, Engine.accepts, Engine.delivers, hpush,
          Attempt.state]
      rw [List.map_cons, List.foldl_cons, hrecord]
      refine (ih hrest _).trans ?_
      rw [List.map_cons, List.append_assoc]
      rfl

end Sent

end Rendering
end Polyphony
