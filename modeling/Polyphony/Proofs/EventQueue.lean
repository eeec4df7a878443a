import Mathlib.Data.List.TakeWhile
import Polyphony.EventQueue

/-!
# The order of waiting events

An event is accepted only if it is not earlier than the last accepted one, so the
events wait in the order of their times.  What is due before a time can then be
taken from the front.

**Results.**
* `Sorted.push`, `Sorted.dropBefore`: the events stay in order.
* `Sorted.dueBefore_eq_filter`, `Sorted.dropBefore_eq_filter`: exactly those that are
  due are taken.
-/

namespace Polyphony

namespace EventQueue

section Order

variable {q : EventQueue}

/-- The waiting events are in order, and the last accepted one is not earlier. -/
structure Sorted (q : EventQueue) : Prop where
  pairwise : q.waiting.Pairwise fun a b => a.time ≤ b.time
  le_last : ∀ event ∈ q.waiting, event.time ≤ q.lastTime

theorem sorted_empty (capacity : Nat) :
    (empty capacity).Sorted := by
  constructor
  · exact List.Pairwise.nil
  · intro event hmem
    cases hmem

theorem Sorted.push
    {r : EventQueue} {event : Event}
    (h : q.Sorted)
    (hpush : q.push event = .ok () r) :
    r.Sorted := by
  obtain ⟨hlate, -, rfl⟩ := eq_of_push hpush
  constructor
  · refine List.pairwise_append.2 ⟨h.pairwise, List.pairwise_singleton _ _, ?_⟩
    intro a ha b hb
    obtain rfl := List.mem_singleton.1 hb
    exact Nat.le_trans (h.le_last a ha) hlate
  · intro a ha
    rcases List.mem_append.1 ha with ha | ha
    · exact Nat.le_trans (h.le_last a ha) hlate
    · obtain rfl := List.mem_singleton.1 ha
      exact Nat.le_refl _

theorem Sorted.dropBefore
    (h : q.Sorted)
    (time : Nat) :
    (q.dropBefore time).Sorted := by
  have hsuffix := List.dropWhile_suffix (l := q.waiting) fun event : Event =>
    decide (event.time < time)
  constructor
  · exact h.pairwise.sublist hsuffix.sublist
  · intro event hmem
    exact h.le_last event (hsuffix.mem hmem)

/-- Those of a sorted list that are left from a time on are not earlier. -/
theorem le_time_of_mem_dropWhile
    {events : List Event} {time : Nat} {event : Event}
    (hsorted : events.Pairwise fun a b => a.time ≤ b.time)
    (h : event ∈ events.dropWhile fun event => event.time < time) :
    time ≤ event.time := by
  induction events with
  | nil => cases h
  | cons first events ih =>
      obtain ⟨hfirst, hrest⟩ := List.pairwise_cons.1 hsorted
      rw [List.dropWhile_cons] at h
      split at h
      case isTrue => exact ih hrest h
      case isFalse hlate =>
        have hle : time ≤ first.time := by
          simpa using hlate
        rcases List.mem_cons.1 h with rfl | hmem
        · exact hle
        · exact Nat.le_trans hle (hfirst event hmem)

/-- What waits until a time is not earlier. -/
theorem Sorted.le_time_of_mem_dropBefore
    (h : q.Sorted)
    {time : Nat} {event : Event}
    (hmem : event ∈ (q.dropBefore time).waiting) :
    time ≤ event.time :=
  le_time_of_mem_dropWhile h.pairwise hmem

theorem time_lt_of_mem_dueBefore
    {time : Nat} {event : Event}
    (hmem : event ∈ q.dueBefore time) :
    event.time < time := by
  simpa using List.mem_takeWhile_imp hmem

/-- In order, the events at the front are all that are due. -/
theorem Sorted.dueBefore_eq_filter
    (h : q.Sorted)
    (time : Nat) :
    q.dueBefore time = q.waiting.filter fun event => event.time < time := by
  have hdue :
      (q.dueBefore time).filter (fun event => event.time < time) = q.dueBefore time :=
    List.filter_eq_self.2 fun event hmem => by simpa using time_lt_of_mem_dueBefore hmem
  have hrest :
      (q.dropBefore time).waiting.filter (fun event => event.time < time) = [] :=
    List.filter_eq_nil_iff.2 fun event hmem => by
      simpa using h.le_time_of_mem_dropBefore hmem
  rw [← q.dueBefore_append_dropBefore time, List.filter_append, hdue, hrest, List.append_nil]

theorem Sorted.dropBefore_eq_filter
    (h : q.Sorted)
    (time : Nat) :
    (q.dropBefore time).waiting = q.waiting.filter fun event => time ≤ event.time := by
  have hdue :
      (q.dueBefore time).filter (fun event => time ≤ event.time) = [] :=
    List.filter_eq_nil_iff.2 fun event hmem => by
      simpa using time_lt_of_mem_dueBefore hmem
  have hrest :
      (q.dropBefore time).waiting.filter (fun event => time ≤ event.time)
        = (q.dropBefore time).waiting :=
    List.filter_eq_self.2 fun event hmem => by
      simpa using h.le_time_of_mem_dropBefore hmem
  rw [← q.dueBefore_append_dropBefore time, List.filter_append, hdue, hrest, List.nil_append]

theorem sorted_flush (q : EventQueue) :
    q.flush.Sorted := by
  constructor
  · exact List.Pairwise.nil
  · intro event hmem
    cases hmem

end Order

end EventQueue

end Polyphony
