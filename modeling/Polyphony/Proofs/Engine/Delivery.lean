import Polyphony.Proofs.Engine.Boundary
import Polyphony.Proofs.Engine.Clock

/-!
# The delivery of events

A player pushes events at one end of the queue, and blocks take them out at the
other end, in whatever order pushes and blocks come and however the host moves
the clock.

**Journal.**  A journal follows an engine through the operations of a host.  It
notes the events that the queue accepted and those that blocks delivered, and
for each of the latter what reached its handler, and when.

**Results.**
* `Kept.record`: one operation keeps the journal in order.
* `delivers_in_order`: what was accepted is what was delivered followed by what
  waits; no event is delivered before its block, blocks leave nothing behind that
  was due, and only events that come too early or find no room are refused.
-/

namespace Polyphony

/-- An event that a block has handed over. -/
structure Delivery where
  /-- The event as it was accepted. -/
  event : Event
  /-- The event as it reached its handler. -/
  performed : Event
  /-- The time at which the block began. -/
  start : Nat
  /-- The number of frames of the block. -/
  frames : Nat

/-- An event is delivered in a block that ends after it, and performed within the block. -/
structure Delivery.Timely (d : Delivery) : Prop where
  due : d.event.time < d.start + d.frames
  performed : d.performed = d.event.moveTo (d.event.time - d.start)
  within : d.performed.time < d.frames

/-- Whether an operation drops no waiting event. -/
def Operation.spares : Operation → Bool
  | .reset => false
  | _ => true

namespace Engine

section Accounts

/-- The events that the queue accepts during an operation. -/
def accepts (e : Engine) : Operation → List Event
  | .push event =>
      match e.push event with
      | .ok _ _ => [event]
      | .error _ _ => []
  | _ => []

/-- What a block of `n` frames delivers, once it is prepared. -/
def deliversWithin (e : Engine) (n : Nat) : List Delivery :=
  (e.due n).map fun event =>
    { event, performed := e.localEvent event, start := e.clock, frames := n }

/-- What an operation delivers. -/
def delivers (e : Engine) : Operation → List Delivery
  | .process frames out =>
      let n := blockLength frames out
      if n = 0 then [] else (e.adoptAwaited.prepare n).deliversWithin n
  | _ => []

end Accounts

section Blocks

variable {e : Engine}

theorem queue_adoptAwaited (e : Engine) :
    e.adoptAwaited.queue = e.queue := by
  unfold adoptAwaited adopt
  split
  · dsimp only
    split <;> rfl
  · rfl

/-- A block delivers what is due, and the rest waits on. -/
theorem deliversWithin_append (e : Engine) (n : Nat) (out : Buffer) :
    ((e.prepare n).deliversWithin n).map Delivery.event ++ (e.renderBlock n out).1.queue.waiting
      = e.queue.waiting := by
  have hevents :
      ((e.prepare n).deliversWithin n).map Delivery.event = e.queue.dueBefore (e.clock + n) := by
    unfold deliversWithin due
    rw [List.map_map, queue_prepare, clock_prepare]
    exact List.map_id' _
  rw [hevents, queue_renderBlock]
  exact e.queue.dueBefore_append_dropBefore _

theorem timely_of_mem_deliversWithin
    {n : Nat} {d : Delivery}
    (hpos : 0 < n)
    (h : d ∈ e.deliversWithin n) :
    d.Timely := by
  obtain ⟨event, hdue, rfl⟩ := List.mem_map.1 h
  have hlt : event.time < e.clock + n := EventQueue.time_lt_of_mem_dueBefore hdue
  constructor
  · exact hlt
  · rfl
  · show event.time - e.clock < n
    omega

/-- A block performs what it delivers. -/
theorem operate_process
    (e : Engine)
    {frames : Nat} {out : Buffer}
    (hpos : 0 < blockLength frames out) :
    e.operate (.process frames out)
      = (((((e.delivers (.process frames out)).map Delivery.performed).foldl
          perform
          (e.adoptAwaited.opened (blockLength frames out))).renderVoices
            (blockLength frames out) out.voices).2).finish (blockLength frames out) := by
  have hne : blockLength frames out ≠ 0 := by omega
  have hperformed (e : Engine) (n : Nat) :
      ((e.prepare n).deliversWithin n).map Delivery.performed
        = ((e.prepare n).due n).map (e.prepare n).localEvent := by
    exact List.map_map
  simp only [operate, process, delivers, if_neg hne]
  rw [renderBlock_fst, performed_eq, hperformed]

end Blocks

end Engine

/-- An engine, with what its queue has accepted and its blocks have delivered so far. -/
structure Journal where
  engine : Engine
  accepted : List Event := []
  deliveries : List Delivery := []

namespace Journal

/-- The journal after one more operation. -/
def record (j : Journal) (op : Operation) : Journal where
  engine := j.engine.operate op
  accepted := j.accepted ++ j.engine.accepts op
  deliveries := j.deliveries ++ j.engine.delivers op

/-- The journal of a host that does one thing after the other. -/
def after (e : Engine) (ops : List Operation) : Journal :=
  ops.foldl record { engine := e }

/-- The time of the last accepted event. -/
def lastTime (j : Journal) : Nat :=
  (j.accepted.getLast?.map Event.time).getD 0

section Keeping

/-- What every operation keeps. -/
structure Kept (room : Nat) (j : Journal) : Prop where
  capacity : j.engine.queue.capacity = room
  last : j.engine.queue.lastTime = j.lastTime
  sorted : j.engine.queue.Sorted
  in_order : j.deliveries.map Delivery.event ++ j.engine.queue.waiting = j.accepted
  timely : ∀ d ∈ j.deliveries, d.Timely

variable {room : Nat} {j : Journal}

/-- An operation that neither accepts nor delivers, and leaves the queue alone. -/
theorem Kept.idle
    (h : j.Kept room)
    {op : Operation}
    (haccepts : j.engine.accepts op = [])
    (hdelivers : j.engine.delivers op = [])
    (hqueue : (j.engine.operate op).queue = j.engine.queue) :
    (j.record op).Kept room := by
  have haccepted : (j.record op).accepted = j.accepted := by
    simp [record, haccepts]
  have hdeliveries : (j.record op).deliveries = j.deliveries := by
    simp [record, hdelivers]
  have hsame : (j.record op).engine.queue = j.engine.queue := hqueue
  constructor
  · rw [hsame]
    exact h.capacity
  · rw [hsame, lastTime, haccepted]
    exact h.last
  · rw [hsame]
    exact h.sorted
  · rw [hsame, haccepted, hdeliveries]
    exact h.in_order
  · rw [hdeliveries]
    exact h.timely

theorem Kept.push
    (h : j.Kept room)
    (event : Event) :
    (j.record (.push event)).Kept room := by
  cases hpush : j.engine.push event with
  | error refusal left =>
      apply h.idle
      · simp [Engine.accepts, hpush]
      · rfl
      · rw [Engine.operate_push_of_error hpush]
  | ok _ after =>
      obtain ⟨queue, hqueue, rfl⟩ := Engine.eq_of_push hpush
      have hengine : (j.record (.push event)).engine = { j.engine with queue } := by
        simp [record, Engine.operate, hpush, Attempt.state]
      have haccepted : (j.record (.push event)).accepted = j.accepted ++ [event] := by
        simp [record, Engine.accepts, hpush]
      have hdeliveries : (j.record (.push event)).deliveries = j.deliveries := by
        simp [record, Engine.delivers]
      have hwaiting := EventQueue.waiting_of_push hqueue
      obtain ⟨hcapacity, hlast⟩ :
          queue.capacity = j.engine.queue.capacity ∧ queue.lastTime = event.time := by
        obtain ⟨-, -, rfl⟩ := EventQueue.eq_of_push hqueue
        exact ⟨rfl, rfl⟩
      constructor
      · rw [hengine, ← h.capacity]
        exact hcapacity
      · rw [hengine, lastTime, haccepted, List.getLast?_concat]
        exact hlast
      · rw [hengine]
        exact h.sorted.push hqueue
      · rw [hengine, haccepted, hdeliveries]
        show _ ++ queue.waiting = _
        rw [hwaiting, ← List.append_assoc, h.in_order]
      · rw [hdeliveries]
        exact h.timely

theorem Kept.process
    (h : j.Kept room)
    (frames : Nat) (out : Buffer) :
    (j.record (.process frames out)).Kept room := by
  by_cases hzero : Engine.blockLength frames out = 0
  · apply h.idle
    · rfl
    · simp [Engine.delivers, hzero]
    · simp [Engine.operate, Engine.process, hzero, Engine.queue_adoptAwaited]
  · have hengine :
        (j.record (.process frames out)).engine
          = (j.engine.adoptAwaited.renderBlock (Engine.blockLength frames out) out).1 := by
      simp [record, Engine.operate, Engine.process, hzero]
    have haccepted : (j.record (.process frames out)).accepted = j.accepted := by
      simp [record, Engine.accepts]
    have hdeliveries :
        (j.record (.process frames out)).deliveries
          = j.deliveries
            ++ (j.engine.adoptAwaited.prepare (Engine.blockLength frames out)).deliversWithin
              (Engine.blockLength frames out) := by
      simp [record, Engine.delivers, hzero]
    have hqueue := Engine.queue_renderBlock j.engine.adoptAwaited
      (Engine.blockLength frames out) out
    rw [Engine.queue_adoptAwaited] at hqueue
    constructor
    · rw [hengine, hqueue]
      exact h.capacity
    · rw [hengine, hqueue, lastTime, haccepted]
      exact h.last
    · rw [hengine, hqueue]
      exact h.sorted.dropBefore _
    · rw [hengine, haccepted, hdeliveries, List.map_append, List.append_assoc,
        Engine.deliversWithin_append, Engine.queue_adoptAwaited]
      exact h.in_order
    · intro d hd
      rw [hdeliveries] at hd
      rcases List.mem_append.1 hd with hold | hnew
      · exact h.timely d hold
      · exact Engine.timely_of_mem_deliversWithin (Nat.pos_of_ne_zero hzero) hnew

/-- An operation that drops no waiting event keeps the journal. -/
theorem Kept.record
    (h : j.Kept room)
    {op : Operation}
    (hspares : op.spares = true) :
    (j.record op).Kept room := by
  cases op with
  | push event => exact h.push event
  | process frames out => exact h.process frames out
  | reset => cases hspares
  | post s =>
      apply h.idle rfl rfl
      rw [Engine.operate_post]
  | setSampleRate rate =>
      apply h.idle rfl rfl
      rcases j.engine.operate_setSampleRate_cases rate with hrate | hsame
      · unfold Engine.withSampleRate at hrate
        split at hrate
        · rw [← (Attempt.ok.inj hrate).2]
          rfl
        · cases hrate
      · rw [hsame]
  | attachMailbox => exact h.idle rfl rfl rfl
  | stage s => exact h.idle rfl rfl rfl
  | setTemperament t => exact h.idle rfl rfl rfl
  | setClock time => exact h.idle rfl rfl rfl
  | silence => exact h.idle rfl rfl rfl

/-- The journal of a run is kept, whatever the host does in which order. -/
theorem kept_foldl
    (ops : List Operation) :
    ∀ {j : Journal}, j.Kept room → (∀ op ∈ ops, op.spares = true) →
      (ops.foldl Journal.record j).Kept room := by
  induction ops with
  | nil => exact fun h _ => h
  | cons op ops ih =>
      intro j h hops
      exact ih (h.record (hops op (by simp))) fun next hnext => hops next (by simp [hnext])

/-- How events were accepted, delivered and refused, and what the next block will deliver. -/
structure InOrder (room : Nat) (j : Journal) : Prop where
  /-- Delivered are the accepted events in their order, but for those that still wait. -/
  in_order : j.deliveries.map Delivery.event ++ j.engine.queue.waiting = j.accepted
  /-- Events are delivered in a block that ends after them. -/
  timely : ∀ d ∈ j.deliveries, d.Timely
  /-- A block performs what it delivers. -/
  performs : ∀ frames out, 0 < Engine.blockLength frames out →
    j.engine.operate (.process frames out)
      = (((((j.engine.delivers (.process frames out)).map Delivery.performed).foldl
          Engine.perform
          (j.engine.adoptAwaited.opened (Engine.blockLength frames out))).renderVoices
            (Engine.blockLength frames out) out.voices).2).finish
              (Engine.blockLength frames out)
  /-- It covers the frames from the clock on, and moves the clock to its end. -/
  covers : ∀ frames out, 0 < Engine.blockLength frames out →
    (∀ d ∈ j.engine.delivers (.process frames out),
      d.start = j.engine.clock ∧ d.frames = Engine.blockLength frames out)
    ∧ (j.engine.operate (.process frames out)).clock
      = j.engine.clock + Engine.blockLength frames out
  /-- After it nothing waits that was due. -/
  leaves : ∀ frames out, 0 < Engine.blockLength frames out →
    ∀ event ∈ (j.engine.operate (.process frames out)).queue.waiting,
      (j.engine.operate (.process frames out)).clock ≤ event.time
  /-- An event is refused if it comes before the last one, or else if there is no room. -/
  push_eq : ∀ event, j.engine.push event =
    if event.time < j.lastTime then .error (.outOfOrder event) j.engine
    else if room ≤ j.engine.queue.length then .error (.full event) j.engine
    else .ok () { j.engine with
      queue := { j.engine.queue with
        waiting := j.engine.queue.waiting ++ [event], lastTime := event.time } }
  /-- A refused event is handed back, and nothing changes. -/
  refused : ∀ event refusal after, j.engine.push event = .error refusal after →
    refusal.event = event ∧ j.record (.push event) = j

theorem Kept.push_eq
    (h : j.Kept room)
    (event : Event) :
    j.engine.push event =
      if event.time < j.lastTime then .error (.outOfOrder event) j.engine
      else if room ≤ j.engine.queue.length then .error (.full event) j.engine
      else .ok () { j.engine with
        queue := { j.engine.queue with
          waiting := j.engine.queue.waiting ++ [event], lastTime := event.time } } := by
  rw [← h.last, ← h.capacity]
  unfold Engine.push EventQueue.push
  split
  · rfl
  · split <;> rfl

theorem Kept.refused
    (h : j.Kept room)
    {event : Event} {refusal : Refusal} {after : Engine}
    (hpush : j.engine.push event = .error refusal after) :
    refusal.event = event ∧ j.record (.push event) = j := by
  constructor
  · rw [h.push_eq] at hpush
    split at hpush
    · cases hpush
      rfl
    · split at hpush
      · cases hpush
        rfl
      · cases hpush
  · simp [Journal.record, Engine.operate_push_of_error hpush, Engine.accepts, Engine.delivers,
      hpush]

theorem Kept.inOrder
    (h : j.Kept room) :
    j.InOrder room where
  in_order := h.in_order
  timely := h.timely
  performs := fun _ _ hpos => j.engine.operate_process hpos
  covers := by
    intro frames out hpos
    have hne : Engine.blockLength frames out ≠ 0 := by omega
    simp only [Engine.operate, Engine.process, Engine.delivers, if_neg hne]
    constructor
    · intro d hd
      obtain ⟨event, _, rfl⟩ := List.mem_map.1 hd
      refine ⟨?_, rfl⟩
      show (j.engine.adoptAwaited.prepare _).clock = _
      rw [Engine.clock_prepare, Engine.clock_adoptAwaited]
    · rw [Engine.clock_renderBlock, Engine.clock_adoptAwaited]
  leaves := by
    intro frames out hpos event hmem
    have hne : Engine.blockLength frames out ≠ 0 := by omega
    simp only [Engine.operate, Engine.process, if_neg hne] at hmem ⊢
    rw [Engine.queue_renderBlock, Engine.queue_adoptAwaited] at hmem
    rw [Engine.clock_renderBlock]
    exact h.sorted.le_time_of_mem_dropBefore hmem
  push_eq := h.push_eq
  refused := fun _ _ _ hpush => h.refused hpush

theorem engine_after (e : Engine) (ops : List Operation) :
    (after e ops).engine = ops.foldl Engine.operate e := by
  have hrun (j : Journal) :
      (ops.foldl record j).engine = ops.foldl Engine.operate j.engine := by
    induction ops generalizing j with
    | nil => rfl
    | cons op ops ih => exact ih (j.record op)
  exact hrun _

/--
Whatever a host does in which order, short of a reset, accepted events are
delivered once and in order, each in the first block that ends after it.
-/
theorem delivers_in_order
    {capacity queueLength : Nat} {rate : Float32} {t : Temperament} {library : Library}
    {e : Engine}
    (hbuild : Engine.build capacity rate (EventQueue.empty queueLength) t library = .ok e)
    {ops : List Operation}
    (hops : ∀ op ∈ ops, op.spares = true) :
    (after e ops).engine = ops.foldl Engine.operate e
      ∧ (after e ops).InOrder (max queueLength 1) := by
  refine ⟨engine_after e ops, ?_⟩
  have hstart : Journal.Kept (max queueLength 1) { engine := e } := by
    rw [Engine.eq_idle_of_build hbuild]
    exact
      { capacity := rfl
        last := rfl
        sorted := EventQueue.sorted_empty _
        in_order := rfl
        timely := fun d hd => by cases hd }
  exact (kept_foldl ops hstart hops).inOrder

/-- Four pushes into a queue with room for one event, two blocks, and a clock set back. -/
def narrowQueue : List Operation :=
  [.push (Event.noteOn 3 1 60.0 1.0 5), .push (Event.noteOff 3 1 6),
    .process 4 (Buffer.silent 2 4), .process 4 (Buffer.silent 2 4),
    .push (Event.noteOff 3 1 4), .push (Event.noteOff 3 1 6),
    .setClock 10, .process 4 (Buffer.silent 2 4)]

/-- The first event is in time, the one that found room at last is late. -/
theorem delivers_narrowQueue :
    Engine.build 2 48000.0 (EventQueue.empty 1) {} .plain
        = .ok (Engine.idle 2 48000.0 (EventQueue.empty 1) {} .plain)
      ∧ (∀ op ∈ narrowQueue, op.spares = true)
      ∧ (after (Engine.idle 2 48000.0 (EventQueue.empty 1) {} .plain) narrowQueue).InOrder 1
      ∧ ((after (Engine.idle 2 48000.0 (EventQueue.empty 1) {} .plain) narrowQueue).deliveries.map
          fun d => (d.event.time, d.start, d.performed.time)) = [(5, 4, 1), (6, 10, 0)] := by
  have hbuild :
      Engine.build 2 48000.0 (EventQueue.empty 1) {} .plain
        = .ok (Engine.idle 2 48000.0 (EventQueue.empty 1) {} .plain) := by
    rfl
  have hspares : ∀ op ∈ narrowQueue, op.spares = true := by
    simp [narrowQueue, Operation.spares]
  exact ⟨hbuild, hspares, (delivers_in_order hbuild hspares).2, by decide +kernel⟩

end Keeping

end Journal
end Polyphony
