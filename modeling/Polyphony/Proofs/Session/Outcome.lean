import Polyphony.Proofs.Session.InTime
import Polyphony.Proofs.Session.Sending

/-!
# What becomes of a script

A host sends the events of a script block by block to a queue that has room for
those of every block.

**Between two blocks.**  The block has taken all events that were sent, so nothing
waits, and nothing was sent that comes later than the frames rendered.  The next
block therefore finds the whole queue to itself.

**Results.**
* `Ready.stepBlock`: a block whose events are in order delivers each of them at its
  frame.
* `Ready.runAll`, `Ready.runAll_error`: so does a run, up to the first event that is
  out of order.
* `renders_in_order`: a script that ends within time is rendered to its end if the
  events before the end are in order, and otherwise the first one that is not is handed
  back.
* `outcome_of_latecomer`: one that ends beyond the greatest time is not.
-/

namespace Polyphony

namespace Rendering

section Windows

variable {start block total k : Nat} {event : Event}

/-- An event falls into a block of a rendering, the first one being block 0. -/
def FallsInto (block total k : Nat) (event : Event) : Prop :=
  k * block ≤ event.time ∧ event.time < min ((k + 1) * block) total

instance (block total k : Nat) (event : Event) : Decidable (FallsInto block total k event) :=
  inferInstanceAs (Decidable (_ ∧ _))

/-- How an event of a script is delivered: in the block into which it falls, at its frame. -/
def delivery (start total block : Nat) (event : Event) : Delivery where
  event := delayed start event
  performed := event.moveTo (event.time % block)
  start := start + event.time / block * block
  frames := min block (total - event.time / block * block)

theorem FallsInto.delivery_eq
    (h : FallsInto block total k event) :
    delivery start total block event
      = { event := delayed start event
          performed := event.moveTo (event.time - k * block)
          start := start + k * block
          frames := min block (total - k * block) } := by
  obtain ⟨hlow, hhigh⟩ := h
  have hdiv : event.time / block = k :=
    Nat.div_eq_of_lt_le hlow (Nat.lt_of_lt_of_le hhigh (Nat.min_le_left _ _))
  have hmod : event.time % block = event.time - k * block := by
    rw [Nat.mod_eq_sub, hdiv, Nat.mul_comm]
  unfold delivery
  rw [hdiv, hmod]

end Windows

section Blocks

variable {start block voices total n : Nat} {r : Rendering}

/-- A block that is long enough for all that waits delivers it and leaves nothing. -/
theorem journal_of_process
    {e : Engine} {out : Buffer}
    (hlength : Engine.blockLength n out = n)
    (hpos : 0 < n)
    (hdue : ∀ event ∈ e.queue.waiting, event.time < e.clock + n)
    (accepted : List Event) (deliveries : List Delivery) :
    (e.process n out).1.queue = { e.queue with waiting := [] }
      ∧ Journal.record { engine := e, accepted, deliveries } (.process n out)
        = { engine := (e.process n out).1
            accepted
            deliveries := deliveries ++ e.queue.waiting.map fun event =>
              { event
                performed := event.moveTo (event.time - e.clock)
                start := e.clock
                frames := n } } := by
  have hdue' : ∀ event ∈ e.queue.waiting, decide (event.time < e.clock + n) = true :=
    fun event hevent => decide_eq_true (hdue event hevent)
  have htaken : e.queue.dueBefore (e.clock + n) = e.queue.waiting :=
    List.takeWhile_eq_self_iff.2 hdue'
  have hleft : e.queue.dropBefore (e.clock + n) = { e.queue with waiting := [] } := by
    unfold EventQueue.dropBefore
    rw [List.dropWhile_eq_nil_iff.2 hdue']
  have hne : n ≠ 0 := Nat.ne_of_gt hpos
  constructor
  · simp only [Engine.process, hlength, if_neg hne]
    rw [Engine.queue_renderBlock, Engine.queue_adoptAwaited, Engine.clock_adoptAwaited, hleft]
  · unfold Journal.record
    simp only [Engine.accepts, Engine.delivers, Engine.operate, hlength, if_neg hne,
      List.append_nil, Engine.deliversWithin, Engine.due, Engine.localEvent, Engine.queue_prepare,
      Engine.clock_prepare, Engine.queue_adoptAwaited, Engine.clock_adoptAwaited, htaken]

/-- Between two blocks nothing waits or was sent ahead, and there is room for every block. -/
structure Ready (start block total : Nat) (r : Rendering) : Prop where
  waiting : r.session.engine.queue.waiting = []
  last : r.session.engine.queue.lastTime ≤ start + r.rendered
  room : ∀ k, r.script.countP (FallsInto block total k ·) ≤ r.session.engine.queue.capacity
  aligned : r.rendered < total → block ∣ r.rendered

/-- What falls before the end of the next block, in order, falls into that block. -/
theorem InStep.fallsInto
    (h : r.InStep start block voices)
    {k : Nat}
    (hk : r.rendered = k * block)
    {events : List Event}
    (hstarts : events <+: near (r.rendered + min block (total - r.rendered)) r.script)
    (hlt : r.rendered < total)
    (hsorted : Chronological events)
    {event : Event}
    (hevent : event ∈ events) :
    FallsInto block total k event := by
  have hlow : r.rendered ≤ event.time := by
    obtain ⟨first, rest, rfl⟩ := List.exists_cons_of_ne_nil (List.ne_nil_of_mem hevent)
    obtain ⟨more, hmore⟩ := hstarts.trans (List.takeWhile_prefix _)
    have hfirst : r.rendered ≤ first.time := h.head first (by rw [← hmore]; rfl)
    rcases List.mem_cons.1 hevent with rfl | hrest
    · exact hfirst
    · exact Nat.le_trans hfirst (List.rel_of_pairwise_cons hsorted hrest)
  have hhigh := time_lt_of_mem_near (hstarts.subset hevent)
  refine ⟨hk ▸ hlow, ?_⟩
  rw [Nat.add_mul, Nat.one_mul, ← hk]
  omega

/-- Between two blocks the queue takes every event of the next one that is in order. -/
theorem Ready.takes
    (h : r.Ready start block total)
    (hin : r.InStep start block voices)
    (hlt : r.rendered < total)
    {events : List Event}
    (hstarts : events <+: near (r.rendered + min block (total - r.rendered)) r.script)
    (hsorted : Chronological events) :
    (∀ event ∈ events, r.session.engine.queue.lastTime ≤ start + event.time)
      ∧ r.session.engine.queue.length + events.length ≤ r.session.engine.queue.capacity := by
  obtain ⟨k, hk⟩ := h.aligned hlt
  rw [Nat.mul_comm] at hk
  have hfalls : ∀ event ∈ events, FallsInto block total k event :=
    fun event hevent => hin.fallsInto hk hstarts hlt hsorted hevent
  constructor
  · intro event hevent
    have hlast := h.last
    have hlow := (hfalls event hevent).1
    omega
  · have hall : events.countP (FallsInto block total k ·) = events.length :=
      List.countP_eq_length.2 fun event hevent => decide_eq_true (hfalls event hevent)
    have hsub : events.Sublist r.script := hstarts.sublist.trans (near_sublist _ _)
    have hcount := hsub.countP_le (p := (FallsInto block total k ·))
    have hroom := h.room k
    unfold EventQueue.length
    rw [h.waiting, List.length_nil, Nat.zero_add]
    omega

/-- Operations lead from a rendering to another one, and deliver events of its script. -/
def Logs (start total block : Nat) (ops : List Operation) (r r' : Rendering)
    (events : List Event) : Prop :=
  ∀ accepted deliveries,
    ops.foldl Journal.record { engine := r.session.engine, accepted, deliveries }
      = { engine := r'.session.engine
          accepted := accepted ++ events.map (delayed start)
          deliveries := deliveries ++ events.map (delivery start total block) }

theorem Logs.append
    {ops ops' : List Operation} {r' r'' : Rendering} {events events' : List Event}
    (h : Logs start total block ops r r' events)
    (h' : Logs start total block ops' r' r'' events') :
    Logs start total block (ops ++ ops') r r'' (events ++ events') := by
  intro accepted deliveries
  rw [List.foldl_append, h, h', List.map_append, List.map_append, List.append_assoc,
    List.append_assoc]

/-- What has been sent for a block of `n` frames is delivered in it. -/
theorem Ready.journal_sent
    (h : r.Ready start block total)
    (hin : r.InStep start block voices)
    (hlength : Engine.blockLength n r.out = n)
    (hpos : 0 < n)
    (events : List Event)
    (hdue : ∀ event ∈ events, event.time < r.rendered + n)
    (accepted : List Event) (deliveries : List Delivery) :
    ((r.session.withSent (events.map (delayed start))).engine.process n r.out).1.queue
        = { (r.session.engine.queue.extended (events.map (delayed start))) with waiting := [] }
      ∧ Journal.record
          { engine := (r.session.withSent (events.map (delayed start))).engine
            accepted
            deliveries }
          (.process n r.out)
        = { engine := ((r.session.withSent (events.map (delayed start))).engine.process n r.out).1
            accepted
            deliveries := deliveries ++ events.map fun event =>
              { event := delayed start event
                performed := event.moveTo (event.time - r.rendered)
                start := start + r.rendered
                frames := n } } := by
  have hwaiting :
      (r.session.withSent (events.map (delayed start))).engine.queue.waiting
        = events.map (delayed start) := by
    show r.session.engine.queue.waiting ++ _ = _
    rw [h.waiting, List.nil_append]
  have hclock :
      (r.session.withSent (events.map (delayed start))).engine.clock = start + r.rendered :=
    hin.clock
  have htimes :
      ∀ event ∈ (r.session.withSent (events.map (delayed start))).engine.queue.waiting,
        event.time < (r.session.withSent (events.map (delayed start))).engine.clock + n := by
    intro event hevent
    rw [hwaiting] at hevent
    obtain ⟨origin, horigin, rfl⟩ := List.mem_map.1 hevent
    rw [hclock, Nat.add_assoc]
    exact Nat.add_lt_add_left (hdue origin horigin) start
  obtain ⟨hqueue, hrecord⟩ := journal_of_process hlength hpos htimes accepted deliveries
  have hlocal (event : Event) :
      (delayed start event).moveTo ((delayed start event).time - (start + r.rendered))
        = event.moveTo (event.time - r.rendered) := by
    show event.moveTo (start + event.time - (start + r.rendered)) = _
    rw [Nat.add_sub_add_left]
  refine ⟨hqueue, ?_⟩
  rw [hrecord, hwaiting, hclock, List.map_map]
  simp only [Function.comp_def, hlocal]

/-- A block whose events were sent and delivered is ready for the next one. -/
theorem Ready.recordBlock
    (h : r.Ready start block total)
    (hlt : r.rendered < total)
    (hn : n = min block (total - r.rendered))
    {s : Session}
    (hqueue : (s.engine.process n r.out).1.queue
      = { (r.session.engine.queue.extended
            ((near (r.rendered + n) r.script).map (delayed start))) with waiting := [] }) :
    (Rendering.recordBlock s (far (r.rendered + n) r.script) n r).Ready start block total := by
  constructor
  · show (s.engine.process n r.out).1.queue.waiting = []
    rw [hqueue]
  · show (s.engine.process n r.out).1.queue.lastTime ≤ start + (r.rendered + n)
    rw [hqueue]
    refine EventQueue.lastTime_extended_le (h.last.trans (by omega)) fun event hevent => ?_
    obtain ⟨origin, horigin, rfl⟩ := List.mem_map.1 hevent
    exact Nat.add_le_add_left (Nat.le_of_lt (time_lt_of_mem_near horigin)) start
  · intro k
    show (far _ r.script).countP _ ≤ (s.engine.process n r.out).1.queue.capacity
    rw [hqueue]
    exact ((List.dropWhile_suffix _).sublist.countP_le).trans (h.room k)
  · intro hmore
    change r.rendered + n < total at hmore
    have hwhole : n = block := by omega
    show block ∣ r.rendered + n
    rw [hwhole]
    exact Nat.dvd_add (h.aligned hlt) (Nat.dvd_refl _)

/-- A block whose events are in order delivers them, and then the next one may follow. -/
theorem Ready.stepBlock
    (h : r.Ready start block total)
    (hin : r.InStep start block voices)
    (hmax : block ≤ maxBlock)
    (hpos : 0 < block)
    (hlt : r.rendered < total)
    (hn : n = min block (total - r.rendered))
    (hsorted : Chronological (near (r.rendered + n) r.script)) :
    ∃ r', stepBlock start n r = .ok r'
      ∧ r'.Ready start block total
      ∧ r'.InStep start block voices
      ∧ r'.rendered = r.rendered + n
      ∧ r'.script = far (r.rendered + n) r.script
      ∧ Logs start total block (blockOperations start n r) r r'
        (near (r.rendered + n) r.script) := by
  have hle : n ≤ block := by omega
  obtain ⟨hlast, hroom⟩ := h.takes hin hlt (hn ▸ List.prefix_refl _) hsorted
  have hsend := sendAll_eq_ok hsorted hlast hroom
  have hjournal :=
    h.journal_sent hin (hin.blockLength_eq hmax hle) (by omega) (near (r.rendered + n) r.script)
      fun _ => time_lt_of_mem_near
  have hstep : Rendering.stepBlock start n r
      = .ok (Rendering.recordBlock
          (r.session.withSent ((near (r.rendered + n) r.script).map (delayed start)))
          (far (r.rendered + n) r.script) n r) := by
    unfold Rendering.stepBlock
    dsimp only
    rw [hsend]
  obtain ⟨hin', hrendered⟩ := hin.stepBlock hmax hle hstep
  refine ⟨_, hstep, h.recordBlock hlt hn (hjournal [] []).1, hin', hrendered, rfl, ?_⟩
  intro accepted deliveries
  obtain ⟨k, hk⟩ := h.aligned hlt
  rw [Nat.mul_comm] at hk
  have hdeliveries :
      ((near (r.rendered + n) r.script).map fun event =>
          ({ event := delayed start event
             performed := event.moveTo (event.time - r.rendered)
             start := start + r.rendered
             frames := n } : Delivery))
        = (near (r.rendered + n) r.script).map (delivery start total block) := by
    refine List.map_congr_left fun event hevent => ?_
    rw [hn] at hevent
    rw [(hin.fallsInto hk (List.prefix_refl _) hlt (hn ▸ hsorted) hevent).delivery_eq, ← hk, ← hn]
  unfold blockOperations
  rw [List.foldl_append, journal_of_sendAll hsend, ← hdeliveries]
  exact (hjournal _ _).2

end Blocks

section Runs

variable {start block voices total left : Nat} {r : Rendering}

/-- The rest of a script is rendered if what falls before the end is in order. -/
theorem Ready.runAll
    (h : r.Ready start block total)
    (hin : r.InStep start block voices)
    (hmax : block ≤ maxBlock)
    (hpos : 0 < block)
    (hleft : r.rendered + left = total)
    (hsorted : Chronological (near total r.script)) :
    ∃ r', runAll start (lengths left block) r = .ok r'
      ∧ r'.Ready start block total
      ∧ Logs start total block (operations start (lengths left block) r) r r'
        (near total r.script) := by
  -- by the frames left; what falls before the end is what the first block sends, then the rest
  induction left using Nat.strong_induction_on generalizing r with
  | h left ih =>
      rcases Nat.eq_zero_or_pos left with rfl | hmore
      · rw [lengths_zero, near_eq_nil fun event hevent => hleft ▸ hin.head event hevent]
        exact ⟨r, rfl, h, fun accepted deliveries => by simp [operations]⟩
      · have hn : min block left = min block (total - r.rendered) := by omega
        have hstop : r.rendered + min block left ≤ total := by omega
        have hsplit := near_eq_append hstop r.script
        rw [hsplit] at hsorted
        obtain ⟨next, hstep, hnext, hin', hrendered, hscript, hlogs⟩ :=
          h.stepBlock hin hmax hpos (by omega) hn
            (hsorted.sublist (List.sublist_append_left _ _))
        rw [← hscript] at hsorted hsplit
        obtain ⟨r', hrun, hready, hrest⟩ := ih (left - min block left) (by omega) hnext hin'
          (by omega) (hsorted.sublist (List.sublist_append_right _ _))
        rw [lengths_of_pos hpos hmore, hsplit]
        unfold Rendering.runAll operations
        rw [hstep]
        exact ⟨r', hrun, hready, hlogs.append hrest⟩

/-- Where a script is cut at a time, an event and an earlier one behind it are not torn apart. -/
theorem cut_cases
    {stop : Nat} {sent rest front back : List Event} {last event : Event}
    (hsplit : front ++ last :: event :: back = sent ++ rest)
    (hsent : ∀ event ∈ sent, event.time < stop)
    (hrest : ∀ event ∈ rest.head?, stop ≤ event.time)
    (hlt : event.time < last.time) :
    (∃ more, sent = front ++ last :: event :: more)
      ∨ ∃ middle, front = sent ++ middle ∧ rest = middle ++ last :: event :: back := by
  rcases List.append_eq_append_iff.1 hsplit with ⟨cut, hcut, htail⟩ | ⟨cut, hcut, htail⟩
  case inr => exact .inr ⟨cut, hcut, htail⟩
  case inl =>
    match cut, hcut, htail with
    | [], hcut, htail => exact .inr ⟨[], by simp [hcut], htail.symm⟩
    | [_], hcut, htail =>
        obtain ⟨rfl, rfl⟩ := List.cons.inj htail
        have hlast := hsent last (hcut ▸ List.mem_append_right _ List.mem_cons_self)
        have hevent := hrest event rfl
        omega
    | _ :: _ :: more, hcut, htail =>
        obtain ⟨rfl, hbehind⟩ := List.cons.inj htail
        obtain ⟨rfl, _⟩ := List.cons.inj hbehind
        exact .inl ⟨more, hcut⟩

/-- Otherwise the first event that is earlier than the one before it is handed back. -/
theorem Ready.runAll_error
    (h : r.Ready start block total)
    (hin : r.InStep start block voices)
    (hmax : block ≤ maxBlock)
    (hpos : 0 < block)
    (hleft : r.rendered + left = total)
    {front back : List Event} {last event : Event}
    (hnear : near total r.script = front ++ last :: event :: back)
    (hsorted : Chronological (front ++ [last]))
    (hlt : event.time < last.time) :
    ∃ i, Rendering.runAll start (lengths left block) r = .error i
      ∧ i.refusal = .outOfOrder (delayed start event) := by
  induction left using Nat.strong_induction_on generalizing r front with
  | h left ih =>
      rcases Nat.eq_zero_or_pos left with rfl | hmore
      · rw [near_eq_nil fun event hevent => hleft ▸ hin.head event hevent] at hnear
        cases front <;> cases hnear
      · have hn : min block left = min block (total - r.rendered) := by omega
        have hstop : r.rendered + min block left ≤ total := by omega
        have hsplit := near_eq_append hstop r.script
        have hcut : ∀ event ∈ (near total (far (r.rendered + min block left) r.script)).head?,
            r.rendered + min block left ≤ event.time := by
          intro event hevent
          unfold near at hevent
          rw [List.head?_takeWhile] at hevent
          exact le_time_head_far (Option.eq_some_of_filter_eq_some hevent)
        rw [lengths_of_pos hpos hmore]
        unfold Rendering.runAll
        -- the event is refused in this block, or all that the block sends is in front of it
        rcases cut_cases (hnear.symm.trans hsplit) (fun _ => time_lt_of_mem_near) hcut hlt with
          ⟨more, hsent⟩ | ⟨middle, hfront, hrest⟩
        · have hstarts : front ++ [last] <+: near (r.rendered + min block left) r.script :=
            ⟨event :: more, by simp [hsent]⟩
          rw [hn] at hstarts
          obtain ⟨hlast, hroom⟩ := h.takes hin (by omega) hstarts hsorted
          obtain ⟨i, hsend, hrefusal⟩ := sendAll_eq_error hsorted hlast hroom hlt more
          refine ⟨{ i with notices := r.notices }, ?_, hrefusal⟩
          unfold Rendering.stepBlock
          dsimp only
          rw [hsent, hsend]
        · rw [hfront, List.append_assoc] at hsorted
          obtain ⟨next, hstep, hnext, hin', hrendered, hscript, _⟩ :=
            h.stepBlock hin hmax hpos (by omega) hn
              (hsorted.sublist (List.sublist_append_left _ _))
          rw [← hscript] at hrest
          rw [hstep]
          exact ih (left - min block left) (by omega) hnext hin' (by omega) hrest
            (hsorted.sublist (List.sublist_append_right _ _))

end Runs

end Rendering

namespace Session

section Outcomes

variable {s : Session} {script : List Event} {total block : Nat}

/-- The operations of a rendering. -/
def renderOperations (s : Session) (script : List Event) (total block : Nat) : List Operation :=
  Rendering.operations s.engine.clock (Rendering.lengths total (renderedBlock block))
    (s.beginRendering script (renderedBlock block))

/-- A rendering has reached its end, and has delivered what falls before it. -/
structure Rendered (s : Session) (script : List Event) (total block : Nat) (r : Rendering) :
    Prop where
  /-- Every stream of every voice is recorded, over all frames. -/
  planes : r.recording.planes.length = s.engine.capacity * 8
  sizes : ∀ plane ∈ r.recording.planes, plane.size = total
  clock : r.session.engine.clock = s.engine.clock + total
  waiting : r.session.engine.queue.waiting = []
  /-- The events before the end were accepted, and each delivered in its block at its frame. -/
  journal : Journal.after s.engine (s.renderOperations script total block)
    = { engine := r.session.engine
        accepted := (Rendering.near total script).map (Rendering.delayed s.engine.clock)
        deliveries := (Rendering.near total script).map
          (Rendering.delivery s.engine.clock total (renderedBlock block)) }
  /-- A block performs what it delivers. -/
  performs : ∀ front n out back,
    s.renderOperations script total block = front ++ .process n out :: back →
    0 < Engine.blockLength n out →
    (Journal.after s.engine front).engine.operate (.process n out)
      = ((((((Journal.after s.engine front).engine.delivers (.process n out)).map
          Delivery.performed).foldl Engine.perform
          ((Journal.after s.engine front).engine.adoptAwaited.opened
            (Engine.blockLength n out))).renderVoices
              (Engine.blockLength n out) out.voices).2).finish (Engine.blockLength n out)

/-- A rendering is ready for its first block. -/
theorem ready_beginRendering
    (hempty : s.engine.queue.waiting = [])
    (hlast : s.engine.queue.lastTime ≤ s.engine.clock)
    (hroom : ∀ k, script.countP (Rendering.FallsInto (renderedBlock block) total k ·)
      ≤ s.engine.queue.capacity) :
    (s.beginRendering script (renderedBlock block)).Ready s.engine.clock (renderedBlock block)
      total where
  waiting := hempty
  last := hlast
  room := hroom
  aligned := fun _ => Nat.dvd_zero _

/--
Nothing waits in the queue or was sent ahead, and it has room for the events of every
block; and the end of the rendering can be counted.  Then a script is rendered to its
end if the events at its front that fall before the end are in order: each of them, and
no other one, is delivered in its block at its frame.  Otherwise the first one that is
earlier than the one before it is handed back.  What becomes of times that cannot be
counted makes no difference.
-/
theorem renders_in_order
    (hempty : s.engine.queue.waiting = [])
    (hlast : s.engine.queue.lastTime ≤ s.engine.clock)
    (hroom : ∀ k, script.countP (Rendering.FallsInto (renderedBlock block) total k ·)
      ≤ s.engine.queue.capacity)
    (htime : s.engine.clock + total ≤ maxCount)
    (o : Overflow) :
    (Chronological (Rendering.near total script) →
      ∃ r, s.renderScriptBy o script total block = some (.ok r)
        ∧ s.Rendered script total block r)
    ∧ (¬ Chronological (Rendering.near total script) →
      ∃ front last event back i,
        Rendering.near total script = front ++ last :: event :: back
          ∧ Chronological (front ++ [last])
          ∧ event.time < last.time
          ∧ s.renderScriptBy o script total block = some (.error i)
          ∧ i.refusal = .outOfOrder (event.moveTo (s.engine.clock + event.time))) := by
  rw [renderScriptBy_eq htime]
  obtain ⟨hpos, hmax⟩ := bounds_renderedBlock block
  have hready := ready_beginRendering hempty hlast hroom
  have hin := Rendering.inStep_beginRendering s script (renderedBlock block)
  have hleft : (s.beginRendering script (renderedBlock block)).rendered + total = total :=
    Nat.zero_add total
  constructor
  · intro hsorted
    obtain ⟨r, hrun, hend, hlogs⟩ := hready.runAll hin hmax hpos hleft hsorted
    obtain ⟨hstep, htotal⟩ := inStep_of_runAll hrun
    refine ⟨r.finish, ?_, ?_, ?_, ?_, hend.waiting, hlogs [] [], ?_⟩
    · rw [renderScript_eq, hrun]
      rfl
    · exact hstep.planes
    · exact fun plane hplane => (hstep.sizes plane hplane).trans htotal
    · exact hstep.clock.trans (congrArg _ htotal)
    · exact fun front n out _ _ hlength => Engine.operate_process _ hlength
  · intro hsorted
    obtain ⟨front, last, event, back, hnear, hfront, hlt⟩ :=
      exists_earlier_of_not_chronological hsorted
    obtain ⟨i, hrun, hrefusal⟩ :=
      hready.runAll_error hin hmax hpos hleft hnear hfront hlt
    refine ⟨front, last, event, back, i, hnear, hfront, hlt, ?_, hrefusal⟩
    rw [renderScript_eq, hrun]
    rfl

/-- Two notes, and a third one behind the end of ten frames. -/
def threeNotes : List Event :=
  [Event.noteOn 3 1 60.0 1.0 1, Event.noteOff 3 1 3, Event.noteOn 4 1 62.0 1.0 9,
    Event.noteOff 4 1 9, Event.noteOn 5 1 64.0 1.0 12]

/-- A note, and two ends of notes in the wrong order. -/
def swappedEnds : List Event :=
  [Event.noteOn 3 1 60.0 1.0 1, Event.noteOff 3 1 9, Event.noteOff 4 1 8]

/-- Why a rendering ended early, if it did. -/
def refusal? : Except Interruption Rendering → Option Refusal
  | .error i => some i.refusal
  | .ok _ => none

/-- Behind a queue for two events four are delivered; the swapped one is handed back. -/
theorem renders_soloist_in_order :
    soloist.engine.queue.waiting = []
      ∧ soloist.engine.queue.lastTime ≤ soloist.engine.clock
      ∧ (∀ k, threeNotes.countP (Rendering.FallsInto (renderedBlock 4) 10 k ·)
          ≤ soloist.engine.queue.capacity)
      ∧ soloist.engine.clock + 10 ≤ maxCount
      ∧ (∃ r, soloist.renderScriptBy .stops threeNotes 10 4 = some (.ok r)
          ∧ soloist.Rendered threeNotes 10 4 r
          ∧ (r.session.engine.clock, r.recording.planes.length) = (10, 16))
      ∧ (∀ k, swappedEnds.countP (Rendering.FallsInto (renderedBlock 4) 10 k ·)
          ≤ soloist.engine.queue.capacity)
      ∧ ∃ i, soloist.renderScriptBy .stops swappedEnds 10 4 = some (.error i)
          ∧ i.refusal = .outOfOrder (Event.noteOff 4 1 8) := by
  have hlast : soloist.engine.queue.lastTime ≤ soloist.engine.clock := by
    decide
  have hroom (script : List Event)
      (hscript : ∀ k : Fin 3, script.countP (Rendering.FallsInto (renderedBlock 4) 10 k ·) ≤ 2) :
      ∀ k, script.countP (Rendering.FallsInto (renderedBlock 4) 10 k ·)
        ≤ soloist.engine.queue.capacity := by
    intro k
    by_cases hk : k < 3
    · exact hscript ⟨k, hk⟩
    · have hnone : script.countP (Rendering.FallsInto (renderedBlock 4) 10 k ·) = 0 := by
        refine List.countP_eq_zero.2 fun event _ hfalls => ?_
        obtain ⟨hlow, hhigh⟩ := of_decide_eq_true hfalls
        have hblock : renderedBlock 4 = 4 := by decide
        rw [hblock] at hlow hhigh
        omega
      rw [hnone]
      exact Nat.zero_le _
  have hnotes := hroom threeNotes (by decide)
  have hends := hroom swappedEnds (by decide)
  have htime : soloist.engine.clock + 10 ≤ maxCount := by
    decide
  obtain ⟨r, hr, hrendered⟩ := (renders_in_order rfl hlast hnotes htime .stops).1 (by decide)
  obtain ⟨front, last, event, back, i, _, _, _, hi, _⟩ :=
    (renders_in_order rfl hlast hends htime .stops).2 (by decide)
  have hrefusal :
      (soloist.renderScriptBy .stops swappedEnds 10 4).bind refusal?
        = some (.outOfOrder (Event.noteOff 4 1 8)) := by
    decide +kernel
  rw [hi] at hrefusal
  refine ⟨rfl, hlast, hnotes, htime, ⟨r, hr, hrendered, ?_⟩, hends, i, hi,
    Option.some.inj hrefusal⟩
  rw [hrendered.clock, hrendered.planes]
  decide

/-- The soloist four frames before the end of time. -/
def latecomer : Session :=
  soloist.withEngine (soloist.engine.operate (.setClock (maxCount - 3)))

/-- A note one frame after the beginning. -/
def oneNote : List Event :=
  [Event.noteOn 3 1 60.0 1.0 1]

/--
Beyond the greatest time either the program ends, or the note waits and the clock is
set back.
-/
theorem outcome_of_latecomer :
    latecomer.engine.queue.waiting = []
      ∧ latecomer.engine.queue.lastTime ≤ latecomer.engine.clock
      ∧ (∀ k, oneNote.countP (Rendering.FallsInto (renderedBlock 4) 8 k ·)
          ≤ latecomer.engine.queue.capacity)
      ∧ Chronological (Rendering.near 8 oneNote)
      ∧ latecomer.renderScriptBy .stops oneNote 8 4 = none
      ∧ ∃ r, latecomer.renderScriptBy .wraps oneNote 8 4 = some (.ok r)
          ∧ r.session.engine.clock = 4
          ∧ r.session.engine.queue.waiting = [Event.noteOn 3 1 60.0 1.0 (maxCount - 2)]
          ∧ ¬ latecomer.Rendered oneNote 8 4 r := by
  have hroom (k : Nat) :
      oneNote.countP (Rendering.FallsInto (renderedBlock 4) 8 k ·)
        ≤ latecomer.engine.queue.capacity :=
    Nat.le_trans List.countP_le_length (by decide +kernel)
  have hstops : latecomer.renderScriptBy .stops oneNote 8 4 = none :=
    Option.isNone_iff_eq_none.1 (by decide +kernel)
  have hwraps :
      ((latecomer.renderScriptBy .wraps oneNote 8 4).bind Except.toOption).map
          (fun r => (r.session.engine.clock, r.session.engine.queue.waiting))
        = some (4, [Event.noteOn 3 1 60.0 1.0 (maxCount - 2)]) := by
    decide +kernel
  obtain ⟨r, hr, hlast⟩ := Option.map_eq_some_iff.1 hwraps
  obtain ⟨outcome, hrun, hok⟩ := Option.bind_eq_some_iff.1 hr
  cases outcome with
  | error i => cases hok
  | ok last =>
      cases hok
      obtain ⟨hclock, hwaiting⟩ := Prod.mk.inj hlast
      refine ⟨rfl, by decide +kernel, hroom, by decide, hstops, r, hrun, hclock, hwaiting, ?_⟩
      intro hrendered
      rw [hrendered.waiting] at hwaiting
      cases hwaiting

end Outcomes

end Session
end Polyphony
