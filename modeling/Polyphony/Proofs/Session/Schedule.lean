import Polyphony.Proofs.Engine.Delivery
import Polyphony.Proofs.Engine.Setup
import Polyphony.Proofs.Signal.Planes
import Polyphony.Session.Offline

/-!
# Rendering a script, block by block

A rendering is a list of blocks, all of one length but for a shorter last one.  For
each block a host sends the events that fall into it and then lets the engine
process it, so that a rendering is a run of operations on the engine.

**Results.**
* `lengths_of_pos`, `lengths_add`: the lengths of the blocks of a rendering.
* `runBlocks_eq_runAll`: a rendering is a run over the lengths of its blocks.
* `engine_of_stepBlock`, `engine_of_runAll`: a rendering operates the engine.
* `InStep.stepBlock`: clock, buffer and recording keep step with the frames rendered.
-/

namespace Polyphony

namespace Rendering

section Lengths

/-- The lengths of the blocks in which `total` frames are rendered: only the last may be shorter. -/
def lengths (total block : Nat) : List Nat :=
  List.replicate (total / block) block ++ if total % block = 0 then [] else [total % block]

/-- Renders blocks of given lengths, one after the other. -/
def runAll (start : Nat) : List Nat → Rendering → Except Interruption Rendering
  | [], r => .ok r
  | n :: ns, r =>
    match stepBlock start n r with
    | .error i => .error i
    | .ok r => runAll start ns r

variable {start block : Nat}

theorem runAll_append
    (ms ns : List Nat) (r : Rendering) :
    runAll start (ms ++ ns) r = (runAll start ms r).bind (runAll start ns) := by
  induction ms generalizing r with
  | nil => rfl
  | cons m ms ih =>
      rw [List.cons_append]
      unfold runAll
      cases stepBlock start m r with
      | error i => rfl
      | ok r => exact ih r

theorem lengths_zero (block : Nat) :
    lengths 0 block = [] := by
  simp [lengths]

/-- Behind whole blocks the rest is cut as on its own. -/
theorem lengths_add
    (hblock : 0 < block)
    (k total : Nat) :
    lengths (k * block + total) block = List.replicate k block ++ lengths total block := by
  have hdiv : (k * block + total) / block = k + total / block := by
    rw [Nat.add_comm, Nat.add_mul_div_right _ _ hblock, Nat.add_comm]
  have hmod : (k * block + total) % block = total % block := by
    rw [Nat.add_comm, Nat.add_mul_mod_self_right]
  unfold lengths
  rw [hdiv, hmod, List.replicate_add, List.append_assoc]

theorem lengths_mul
    (hblock : 0 < block)
    (k : Nat) :
    lengths (k * block) block = List.replicate k block := by
  rw [← Nat.add_zero (k * block), lengths_add hblock, lengths_zero, List.append_nil]

/-- The first block is as long as it may be. -/
theorem lengths_of_pos
    (hblock : 0 < block)
    {total : Nat}
    (htotal : 0 < total) :
    lengths total block = min block total :: lengths (total - min block total) block := by
  by_cases hle : block ≤ total
  · have hsum := lengths_add hblock 1 (total - block)
    rw [Nat.one_mul, Nat.add_sub_cancel' hle] at hsum
    rw [hsum, Nat.min_eq_left hle]
    rfl
  · have hlt : total < block := Nat.lt_of_not_le hle
    have hne : total ≠ 0 := Nat.ne_of_gt htotal
    rw [Nat.min_eq_right (Nat.le_of_lt hlt), Nat.sub_self, lengths_zero]
    unfold lengths
    rw [Nat.div_eq_of_lt hlt, Nat.mod_eq_of_lt hlt, if_neg hne]
    rfl

theorem length_lengths (total block : Nat) :
    (lengths total block).length = blockCount total block := by
  unfold lengths blockCount
  rw [List.length_append, List.length_replicate]
  split <;> rfl

/-- The blocks are as long together as what is rendered. -/
theorem sum_lengths (total block : Nat) :
    (lengths total block).sum = total := by
  have hwhole := Nat.div_add_mod total block
  unfold lengths
  rw [List.sum_append, List.sum_replicate, smul_eq_mul, Nat.mul_comm]
  split
  case isTrue hzero =>
    rw [List.sum_nil]
    omega
  case isFalse =>
    rw [List.sum_singleton]
    exact hwhole

/-- No block is longer than asked for. -/
theorem le_of_mem_lengths
    (hblock : 0 < block)
    {total n : Nat}
    (h : n ∈ lengths total block) :
    n ≤ block := by
  unfold lengths at h
  rcases List.mem_append.1 h with h | h
  · exact Nat.le_of_eq (List.eq_of_mem_replicate h)
  · split at h
    case isTrue => cases h
    case isFalse =>
      rw [List.mem_singleton.1 h]
      exact Nat.le_of_lt (Nat.mod_lt _ hblock)

end Lengths

section Sending

variable {start : Nat}

/-- An event that comes later by a number of frames. -/
def delayed (shift : Nat) (event : Event) : Event :=
  event.moveTo (shift + event.time)

/-- The operation that sends an event of a script. -/
def sending (start : Nat) (event : Event) : Operation :=
  .push (delayed start event)

theorem sendAll_append
    (xs ys : List Event) (s : Session) :
    sendAll start (xs ++ ys) s = (sendAll start xs s).bind (sendAll start ys) := by
  induction xs generalizing s with
  | nil => rfl
  | cons x xs ih =>
      rw [List.cons_append]
      unfold sendAll
      cases s.send (x.moveTo (start + x.time)) with
      | error refusal left => rfl
      | ok _ s => exact ih s

/-- Sending an event that is accepted operates the engine, and nothing else of the session. -/
theorem eq_of_send
    {s after : Session} {event : Event}
    (h : s.send event = .ok () after) :
    after = s.withEngine (s.engine.operate (.push event)) := by
  obtain ⟨engine, hpush, rfl⟩ := Session.exists_push_of_send h
  simp [Engine.operate, hpush, Attempt.state]

/-- Events are sent if the first one is accepted and the others are sent behind it. -/
theorem exists_send_of_sendAll
    {event : Event} {events : List Event} {s after : Session}
    (h : sendAll start (event :: events) s = .ok after) :
    ∃ sent, s.send (delayed start event) = .ok () sent ∧ sendAll start events sent = .ok after := by
  unfold sendAll at h
  cases hsend : s.send (event.moveTo (start + event.time)) with
  | error refusal left =>
      rw [hsend] at h
      cases h
  | ok _ sent =>
      rw [hsend] at h
      exact ⟨sent, hsend, h⟩

/-- What is sent operates the engine, and nothing else of the session. -/
theorem eq_of_sendAll
    {events : List Event} {s after : Session}
    (h : sendAll start events s = .ok after) :
    after = s.withEngine ((events.map (sending start)).foldl Engine.operate s.engine) := by
  induction events generalizing s with
  | nil =>
      cases h
      rfl
  | cons event events ih =>
      obtain ⟨sent, hsend, hrest⟩ := exists_send_of_sendAll h
      rw [ih hrest, eq_of_send hsend]
      rfl

/-- Sending leaves all but the queue alone. -/
theorem exists_queue_of_pushes
    (start : Nat) (events : List Event) (e : Engine) :
    ∃ queue, (events.map (sending start)).foldl Engine.operate e = { e with queue } := by
  induction events generalizing e with
  | nil => exact ⟨e.queue, rfl⟩
  | cons event events ih =>
      obtain ⟨queue, hqueue⟩ := ih (e.operate (sending start event))
      rw [List.map_cons, List.foldl_cons, hqueue]
      obtain ⟨_, -, hpush⟩ := Engine.exists_operate_push e (delayed start event)
      rw [sending, hpush]
      exact ⟨queue, rfl⟩

end Sending

section Cutting

variable {time stop : Nat} {script : List Event} {event : Event}

theorem time_lt_of_mem_near
    (h : event ∈ near time script) :
    event.time < time := by
  simpa using List.mem_takeWhile_imp h

theorem near_sublist (time : Nat) (script : List Event) :
    (near time script).Sublist script :=
  (List.takeWhile_prefix _).sublist

/-- A script that is cut off before a time begins no earlier. -/
theorem le_time_head_far
    (h : event ∈ (far time script).head?) :
    time ≤ event.time := by
  have hnot := List.head?_dropWhile_not (fun event : Event => decide (event.time < time)) script
  unfold far at h
  rw [Option.mem_def.1 h] at hnot
  simpa using hnot

/-- A script that begins no earlier than a time has nothing before it. -/
theorem near_eq_nil
    (h : ∀ event ∈ script.head?, time ≤ event.time) :
    near time script = [] := by
  cases script with
  | nil => rfl
  | cons event script =>
      have hle := h event rfl
      simp [near, hle]

theorem far_eq_self
    (h : ∀ event ∈ script.head?, time ≤ event.time) :
    far time script = script := by
  cases script with
  | nil => rfl
  | cons event script =>
      have hle := h event rfl
      simp [far, hle]

/-- A script is sent up to a time, and then on to a later one. -/
theorem near_eq_append
    (hle : time ≤ stop)
    (script : List Event) :
    near stop script = near time script ++ near stop (far time script) := by
  induction script with
  | nil => rfl
  | cons event script ih =>
      unfold near far at ih ⊢
      by_cases hlt : event.time < time
      · have hstop : event.time < stop := Nat.lt_of_lt_of_le hlt hle
        simp [hlt, hstop, ih]
      · simp [hlt]

end Cutting

section Steps

variable {start n : Nat} {r r' : Rendering}

/-- The operations of one block of a rendering: its events, then the block. -/
def blockOperations (start n : Nat) (r : Rendering) : List Operation :=
  (near (r.rendered + n) r.script).map (sending start) ++ [.process n r.out]

/-- The operations of several blocks of a rendering, up to the first refusal. -/
def operations (start : Nat) : List Nat → Rendering → List Operation
  | [], _ => []
  | n :: ns, r =>
    blockOperations start n r ++
      match stepBlock start n r with
      | .error _ => []
      | .ok r => operations start ns r

/-- A block is rendered if its events are accepted. -/
theorem stepBlock_eq_ok
    (h : stepBlock start n r = .ok r') :
    ∃ s, sendAll start (near (r.rendered + n) r.script) r.session = .ok s
      ∧ r' = recordBlock s (far (r.rendered + n) r.script) n r := by
  unfold stepBlock at h
  dsimp only at h
  cases hsend : sendAll start (near (r.rendered + n) r.script) r.session with
  | error i =>
      rw [hsend] at h
      cases h
  | ok s =>
      rw [hsend] at h
      cases h
      exact ⟨s, rfl, rfl⟩

/-- With `left` frames to go, a rendering is a run over the lengths of the blocks left. -/
theorem runBlocks_eq_runAll
    {block total left : Nat}
    (hblock : 0 < block)
    (hleft : r.rendered + left = total) :
    runBlocks start total block (blockCount left block) r
      = runAll start (lengths left block) r := by
  rw [← length_lengths]
  induction left using Nat.strong_induction_on generalizing r with
  | h left ih =>
      rcases Nat.eq_zero_or_pos left with rfl | hmore
      · rw [lengths_zero]
        rfl
      · have hn : min block (total - r.rendered) = min block left := by omega
        rw [lengths_of_pos hblock hmore, List.length_cons]
        unfold runBlocks runAll
        rw [hn]
        cases hstep : stepBlock start (min block left) r with
        | error i => rfl
        | ok next =>
            obtain ⟨s, -, rfl⟩ := stepBlock_eq_ok hstep
            have hrendered : r.rendered + min block left + (left - min block left) = total := by
              omega
            exact ih (left - min block left) (by omega) hrendered

/-- Blocks are rendered if the first one is and the others are behind it. -/
theorem exists_stepBlock_of_runAll
    {ns : List Nat}
    (h : runAll start (n :: ns) r = .ok r') :
    ∃ next, stepBlock start n r = .ok next ∧ runAll start ns next = .ok r' := by
  unfold runAll at h
  cases hstep : stepBlock start n r with
  | error i =>
      rw [hstep] at h
      cases h
  | ok next =>
      rw [hstep] at h
      exact ⟨next, rfl, h⟩

/-- A block operates the engine. -/
theorem engine_of_stepBlock
    (h : stepBlock start n r = .ok r') :
    r'.session.engine = (blockOperations start n r).foldl Engine.operate r.session.engine := by
  obtain ⟨s, hsend, rfl⟩ := stepBlock_eq_ok h
  unfold blockOperations
  rw [List.foldl_append, eq_of_sendAll hsend]
  rfl

/-- A rendering operates the engine. -/
theorem engine_of_runAll
    {ns : List Nat}
    (h : runAll start ns r = .ok r') :
    r'.session.engine = (operations start ns r).foldl Engine.operate r.session.engine := by
  induction ns generalizing r with
  | nil =>
      cases h
      rfl
  | cons n ns ih =>
      obtain ⟨next, hstep, hrest⟩ := exists_stepBlock_of_runAll h
      unfold operations
      rw [hstep]
      dsimp only
      rw [List.foldl_append, ih hrest, engine_of_stepBlock hstep]

/-- A rendering leads from reachable engines to reachable ones. -/
theorem reachable_of_stepBlock
    (hreach : Engine.Reachable r.session.engine)
    (h : stepBlock start n r = .ok r') :
    Engine.Reachable r'.session.engine := by
  rw [engine_of_stepBlock h]
  exact hreach.operateAll _

end Steps

section Keeping

variable {start block voices n : Nat} {r r' : Rendering}

/-- Clock, buffer and recording of a rendering are in step with the frames rendered. -/
structure InStep (start block voices : Nat) (r : Rendering) : Prop where
  clock : r.session.engine.clock = start + r.rendered
  capacity : r.session.engine.capacity = voices
  shape : r.out.voices = voices ∧ r.out.frames = block
  planes : r.recording.planes.length = voices * streamCount
  sizes : ∀ plane ∈ r.recording.planes, plane.size = r.rendered
  head : ∀ event ∈ r.script.head?, r.rendered ≤ event.time

/-- A block that is no longer than asked for is processed at its length. -/
theorem InStep.blockLength_eq
    (h : r.InStep start block voices)
    (hmax : block ≤ maxBlock)
    (hn : n ≤ block) :
    Engine.blockLength n r.out = n := by
  unfold Engine.blockLength
  rw [h.shape.2]
  omega

/-- A block leaves the shape of its buffer. -/
theorem shape_process (e : Engine) (frames : Nat) (out : Buffer) :
    (e.process frames out).2.voices = out.voices
      ∧ (e.process frames out).2.frames = out.frames := by
  unfold Engine.process
  dsimp only
  split
  · exact ⟨rfl, rfl⟩
  · exact Buffer.shape_putVoices _ _

/-- From every plane of a block that is long enough as many frames are recorded. -/
theorem sizes_extend
    {b : Buffer} {size : Nat}
    (hframes : n ≤ b.frames)
    (planes : List Signal) :
    ∀ i, i + planes.length ≤ b.voices * streamCount →
      (∀ plane ∈ planes, plane.size = size) →
      ∀ plane ∈ Recording.extend b n i planes, plane.size = size + n := by
  induction planes with
  | nil =>
      intro i _ _ plane hplane
      cases hplane
  | cons first planes ih =>
      intro i hlength hsizes plane hplane
      rw [List.length_cons] at hlength
      have hmul : (i + 1) * b.frames ≤ b.voices * streamCount * b.frames :=
        Nat.mul_le_mul_right _ (by omega)
      have hend : b.planeStart i + n ≤ b.samples.size := by
        unfold Buffer.planeStart
        rw [b.size_eq]
        rw [Nat.add_mul, Nat.one_mul] at hmul
        omega
      rcases List.mem_cons.1 hplane with rfl | hrest
      · rw [Array.size_append, Array.size_extract, hsizes first List.mem_cons_self]
        omega
      · exact ih (i + 1) (by omega) (fun p hp => hsizes p (List.mem_cons_of_mem _ hp)) plane hrest

/-- One block keeps step. -/
theorem InStep.stepBlock
    (h : r.InStep start block voices)
    (hmax : block ≤ maxBlock)
    (hn : n ≤ block)
    (hstep : stepBlock start n r = .ok r') :
    r'.InStep start block voices ∧ r'.rendered = r.rendered + n := by
  obtain ⟨s, hsend, rfl⟩ := stepBlock_eq_ok hstep
  obtain ⟨queue, hqueue⟩ :=
    exists_queue_of_pushes start (near (r.rendered + n) r.script) r.session.engine
  have hengine : s.engine = { r.session.engine with queue } := by
    rw [eq_of_sendAll hsend, hqueue]
    rfl
  have hclock : (s.engine.process n r.out).1.clock = s.engine.clock + n := by
    rw [Engine.clock_process, h.blockLength_eq hmax hn]
  obtain ⟨hvoices, hframes⟩ := shape_process s.engine n r.out
  have hlong : n ≤ (s.engine.process n r.out).2.frames := by
    rw [hframes, h.shape.2]
    exact hn
  have hroom :
      0 + r.recording.planes.length ≤ (s.engine.process n r.out).2.voices * streamCount := by
    rw [hvoices, h.shape.1, h.planes, Nat.zero_add]
  refine ⟨⟨?_, ?_, ⟨hvoices.trans h.shape.1, hframes.trans h.shape.2⟩, ?_, ?_, ?_⟩, rfl⟩
  · show (s.engine.process n r.out).1.clock = start + (r.rendered + n)
    rw [hclock, hengine, ← Nat.add_assoc, ← h.clock]
  · show (s.engine.process n r.out).1.capacity = voices
    rw [Engine.capacity_process, hengine]
    exact h.capacity
  · exact (Recording.length_extend _ _ _ _).trans h.planes
  · exact sizes_extend hlong _ 0 hroom h.sizes
  · exact fun event hevent => le_time_head_far hevent

/-- Several blocks keep step. -/
theorem InStep.runAll
    {ns : List Nat}
    (h : r.InStep start block voices)
    (hmax : block ≤ maxBlock)
    (hns : ∀ n ∈ ns, n ≤ block)
    (hrun : runAll start ns r = .ok r') :
    r'.InStep start block voices ∧ r'.rendered = r.rendered + ns.sum := by
  induction ns generalizing r with
  | nil =>
      cases hrun
      exact ⟨h, rfl⟩
  | cons n ns ih =>
      obtain ⟨next, hstep, hrest⟩ := exists_stepBlock_of_runAll hrun
      obtain ⟨hnext, hrendered⟩ := h.stepBlock hmax (hns n List.mem_cons_self) hstep
      obtain ⟨hlast, htotal⟩ :=
        ih hnext (fun m hm => hns m (List.mem_cons_of_mem _ hm)) hrest
      refine ⟨hlast, ?_⟩
      rw [htotal, hrendered, List.sum_cons, Nat.add_assoc]

/-- A rendering that has not begun is in step. -/
theorem inStep_beginRendering (s : Session) (script : List Event) (block : Nat) :
    (s.beginRendering script block).InStep s.engine.clock block s.engine.capacity where
  clock := rfl
  capacity := rfl
  shape := ⟨rfl, rfl⟩
  planes := List.length_replicate
  sizes := fun plane hplane => by
    rw [List.eq_of_mem_replicate hplane]
    rfl
  head := fun _ _ => Nat.zero_le _

end Keeping

end Rendering

namespace Session

/-- A block to render has at least one frame and is no longer than the longest one. -/
theorem bounds_renderedBlock (block : Nat) :
    0 < renderedBlock block ∧ renderedBlock block ≤ maxBlock := by
  unfold renderedBlock maxBlock
  omega

/-- A script is rendered by a run over the lengths of its blocks, with a last notice. -/
theorem renderScript_eq (s : Session) (script : List Event) (total block : Nat) :
    s.renderScript script total block
      = (Rendering.runAll s.engine.clock (Rendering.lengths total (renderedBlock block))
          (s.beginRendering script (renderedBlock block))).map Rendering.finish := by
  have hbegin : (s.beginRendering script (renderedBlock block)).rendered + total = total :=
    Nat.zero_add total
  unfold renderScript
  dsimp only
  rw [Rendering.runBlocks_eq_runAll (bounds_renderedBlock block).1 hbegin]

/-- At its end a rendering is in step, with all frames rendered. -/
theorem inStep_of_runAll
    {s : Session} {script : List Event} {total block : Nat} {last : Rendering}
    (hrun : Rendering.runAll s.engine.clock (Rendering.lengths total (renderedBlock block))
      (s.beginRendering script (renderedBlock block)) = .ok last) :
    last.InStep s.engine.clock (renderedBlock block) s.engine.capacity ∧ last.rendered = total := by
  obtain ⟨hpos, hmax⟩ := bounds_renderedBlock block
  obtain ⟨hin, hrendered⟩ :=
    (Rendering.inStep_beginRendering s script (renderedBlock block)).runAll hmax
      (fun _ => Rendering.le_of_mem_lengths hpos) hrun
  refine ⟨hin, hrendered.trans ?_⟩
  rw [Rendering.sum_lengths]
  exact Nat.zero_add _

/-- A session whose engine is about to play with one voice, behind a short queue. -/
def soloist : Session :=
  { engine := [.attachMailbox, .stage { voices := 1 }].foldl Engine.operate
      (Engine.idle 2 48000.0 (EventQueue.empty 2) {} .plain)
    sampleRate := 48000.0 }

end Session

end Polyphony
