import Polyphony.Proofs.Session.Schedule

/-!
# Renderings within time

A rendering adds the time at which it began to the times of its events, and each of
its blocks ends later than it begins.  If the end of the rendering can be counted, all
these sums can.

**Results.**
* `sendAllBy_eq`, `stepBlockBy_eq`, `runBlocksBy_eq`: what is sent and rendered within
  time is so at exact times.
* `renderScriptBy_eq`: whatever becomes of times that cannot be counted, a script that
  ends before them is rendered at exact times.
-/

namespace Polyphony

namespace Rendering

section Time

variable {start n : Nat} {s after : Session} {r r' : Rendering}

/-- Events whose times can be counted are sent at them. -/
theorem sendAllBy_eq
    {events : List Event}
    (h : ∀ event ∈ events, start + event.time ≤ maxCount)
    (o : Overflow) (s : Session) :
    sendAllBy o start events s = some (sendAll start events s) := by
  induction events generalizing s with
  | nil => rfl
  | cons event events ih =>
      obtain ⟨hfirst, hrest⟩ := List.forall_mem_cons.1 h
      unfold sendAllBy sendAll
      rw [Overflow.add?_of_le hfirst]
      dsimp only
      cases s.send (event.moveTo (start + event.time)) with
      | error refusal left => rfl
      | ok _ s => exact ih hrest s

/-- Sending does not move the clock. -/
theorem clock_of_sendAll
    {events : List Event}
    (h : sendAll start events s = .ok after) :
    after.engine.clock = s.engine.clock := by
  obtain ⟨queue, hqueue⟩ := exists_queue_of_pushes start events s.engine
  rw [eq_of_sendAll h, hqueue]
  rfl

/-- A block that ends within time is rendered, at exact times. -/
theorem stepBlockBy_eq
    (hclock : r.session.engine.clock ≤ start + r.rendered)
    (htime : start + (r.rendered + n) ≤ maxCount)
    (o : Overflow) :
    stepBlockBy o start n r = some (stepBlock start n r) := by
  have hevents : ∀ event ∈ near (r.rendered + n) r.script, start + event.time ≤ maxCount := by
    intro event hevent
    have hlt := time_lt_of_mem_near hevent
    omega
  unfold stepBlockBy stepBlock
  dsimp only
  rw [sendAllBy_eq hevents]
  cases hsend : sendAll start (near (r.rendered + n) r.script) r.session with
  | error i => rfl
  | ok s =>
      have hlength := Engine.blockLength_le n r.out
      have hend : s.engine.clock + Engine.blockLength n r.out ≤ maxCount := by
        rw [clock_of_sendAll hsend]
        omega
      dsimp only
      rw [Engine.processBy_eq hend]
      rfl

/-- The clock keeps up with the frames rendered. -/
theorem clock_le_of_stepBlock
    (hclock : r.session.engine.clock ≤ start + r.rendered)
    (h : stepBlock start n r = .ok r') :
    r'.session.engine.clock ≤ start + r'.rendered ∧ r'.rendered = r.rendered + n := by
  obtain ⟨s, hsend, rfl⟩ := stepBlock_eq_ok h
  have hlength := Engine.blockLength_le n r.out
  have hprocess := Engine.clock_process s.engine n r.out
  rw [clock_of_sendAll hsend] at hprocess
  refine ⟨?_, rfl⟩
  show (s.engine.process n r.out).1.clock ≤ start + (r.rendered + n)
  omega

/-- Blocks up to an end within time are rendered, at exact times. -/
theorem runBlocksBy_eq
    {total : Nat}
    (hclock : r.session.engine.clock ≤ start + r.rendered)
    (hrendered : r.rendered ≤ total)
    (htime : start + total ≤ maxCount)
    (o : Overflow) (block blocks : Nat) :
    runBlocksBy o start total block blocks r = some (runBlocks start total block blocks r) := by
  induction blocks generalizing r with
  | zero => rfl
  | succ blocks ih =>
      have hstop : start + (r.rendered + min block (total - r.rendered)) ≤ maxCount := by omega
      unfold runBlocksBy runBlocks
      rw [stepBlockBy_eq hclock hstop]
      cases hstep : stepBlock start (min block (total - r.rendered)) r with
      | error i => rfl
      | ok next =>
          obtain ⟨hclock', hnext⟩ := clock_le_of_stepBlock hclock hstep
          exact ih hclock' (by omega)

end Time

end Rendering

namespace Session

/-- A script that ends within time is rendered, at exact times. -/
theorem renderScriptBy_eq
    {s : Session} {total : Nat}
    (htime : s.engine.clock + total ≤ maxCount)
    (o : Overflow) (script : List Event) (block : Nat) :
    s.renderScriptBy o script total block = some (s.renderScript script total block) := by
  have hclock :
      (s.beginRendering script (renderedBlock block)).session.engine.clock
        ≤ s.engine.clock + (s.beginRendering script (renderedBlock block)).rendered :=
    Nat.le_add_right _ _
  have hbegin : (s.beginRendering script (renderedBlock block)).rendered ≤ total :=
    Nat.zero_le total
  unfold renderScriptBy renderScript
  dsimp only
  rw [Rendering.runBlocksBy_eq hclock hbegin htime, Option.map_some]

end Session
end Polyphony
