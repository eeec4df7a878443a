import Polyphony.Proofs.Engine.Writing
import Polyphony.Proofs.Session.Schedule

/-!
# Rendering on where a rendering ended

A script may be rendered in two parts, the second one from where the first one
ended, or at once.  The parts meet at the edge of a block.

**At the seam.**  When the first part ends, all of its script has been sent, since
it falls before the end.  From there on the rendering at once differs from the
second part in three things: its events are delayed by the length of the first
part, it records behind what is recorded already, and its output buffer holds what
the first part left.  None of them reaches the engine.

**Results.**
* `runAll_withMore`: events behind the end of a run change nothing before it.
* `Behind.runAll`: from the seam on, the rendering at once goes along with the
  second part.
* `renders_in_parts`: the recordings of two parts, one behind the other, are the
  recording of the rendering at once, which ends in the same session.
-/

namespace Polyphony

namespace Recording

section Seams

/-- A recording, and behind each of its planes the same plane of another one. -/
def followedBy (r next : Recording) : Recording :=
  { r with planes := List.zipWith (· ++ ·) r.planes next.planes }

/-- What is put behind the second of two recordings is put behind both. -/
theorem extend_zipWith
    (block : Buffer) (n : Nat) (planes : List Signal) :
    ∀ (i : Nat) (first : List Signal),
      extend block n i (List.zipWith (· ++ ·) first planes)
        = List.zipWith (· ++ ·) first (extend block n i planes) := by
  induction planes with
  | nil =>
      intro i first
      cases first <;> rfl
  | cons plane planes ih =>
      intro i first
      cases first with
      | nil => rfl
      | cons before first =>
          simp only [List.zipWith_cons_cons, extend, ih, Array.append_assoc]

theorem append_followedBy (r next : Recording) (block : Buffer) (n : Nat) :
    (r.followedBy next).append block n = r.followedBy (next.append block n) := by
  unfold append followedBy
  rw [extend_zipWith]

/-- Only the beginnings of the planes of a block are recorded. -/
theorem extend_congr
    {block other : Buffer} {n : Nat}
    (planes : List Signal) :
    ∀ i, (∀ k < i + planes.length,
        other.samples.extract (other.planeStart k) (other.planeStart k + n)
          = block.samples.extract (block.planeStart k) (block.planeStart k + n)) →
      extend other n i planes = extend block n i planes := by
  induction planes with
  | nil =>
      intro i _
      rfl
  | cons plane planes ih =>
      intro i hsame
      rw [List.length_cons] at hsame
      unfold extend
      dsimp only
      rw [hsame i (by omega), ih (i + 1) fun k hk => hsame k (by omega)]

/-- Nothing is put behind a recording by one without frames. -/
theorem followedBy_empty
    {r : Recording} {voices : Nat}
    (h : r.planes.length = voices * streamCount)
    (rate : Float32) :
    r.followedBy (empty voices rate) = r := by
  have hplanes :
      List.zipWith (· ++ ·) r.planes (List.replicate (voices * streamCount) (#[] : Signal))
        = r.planes := by
    rw [← h]
    induction r.planes with
    | nil => rfl
    | cons plane planes ih =>
        rw [List.length_cons, List.replicate_succ, List.zipWith_cons_cons, ih, Array.append_empty]
  unfold followedBy empty
  rw [hplanes]

end Seams

end Recording

section Buffers

variable {e : Engine} {frames : Nat} {out other : Buffer}

/-- What a block writes to its frames does not depend on what the buffer held before. -/
theorem Engine.sample_process_congr
    (h : Reachable e)
    (hvoices : other.voices = out.voices)
    (hframes : other.frames = out.frames)
    {voice j : Nat}
    (hvoice : voice < out.voices)
    (s : Stream)
    (hj : j < blockLength frames out) :
    (e.process frames other).2.sample voice s j = (e.process frames out).2.sample voice s j := by
  have hpos : 0 < blockLength frames out := Nat.lt_of_le_of_lt (Nat.zero_le _) hj
  have hle : blockLength frames out ≤ out.frames := Nat.min_le_right _ _
  by_cases hcount : voice < e.adoptAwaited.bank.count
  · exact sample_playing_congr h hpos hvoices hframes hcount hvoice s hj
  · have hbeyond : e.adoptAwaited.bank.count ≤ voice := Nat.le_of_not_lt hcount
    have hlength : blockLength frames other = blockLength frames out := by
      unfold blockLength
      rw [hframes]
    rw [sample_beyond hpos hbeyond hvoice s (by omega),
      sample_beyond (by omega) hbeyond (by omega) s (by omega)]

/-- The beginnings of all planes after a block do not depend on what the buffer held before. -/
theorem Engine.extract_process_congr
    (h : Reachable e)
    (hvoices : other.voices = out.voices)
    (hframes : other.frames = out.frames)
    {k : Nat}
    (hk : k < out.voices * streamCount)
    (frames : Nat) :
    (e.process frames other).2.samples.extract ((e.process frames other).2.planeStart k)
        ((e.process frames other).2.planeStart k + blockLength frames out)
      = (e.process frames out).2.samples.extract ((e.process frames out).2.planeStart k)
          ((e.process frames out).2.planeStart k + blockLength frames out) := by
  obtain ⟨hvoices', hframes'⟩ := Rendering.shape_process e frames out
  obtain ⟨hvoices'', hframes''⟩ := Rendering.shape_process e frames other
  obtain ⟨voice, hvoice, s, rfl⟩ := Buffer.exists_planeOf_eq hk
  have hstart : (e.process frames other).2.planeStart (Buffer.planeOf voice s)
      = (e.process frames out).2.planeStart (Buffer.planeOf voice s) := by
    unfold Buffer.planeStart
    rw [hframes'', hframes', hframes]
  have hsize : (e.process frames other).2.samples.size = (e.process frames out).2.samples.size := by
    rw [Buffer.size_eq, Buffer.size_eq, hvoices'', hframes'', hvoices', hframes', hvoices, hframes]
  apply Array.ext_getElem?
  intro j
  rw [Array.getElem?_extract, Array.getElem?_extract, hsize, hstart]
  split
  case isTrue hj =>
    have hsample :
        (e.process frames other).2.sample voice s j
          = (e.process frames out).2.sample voice s j :=
      sample_process_congr h hvoices hframes hvoice s (by omega)
    unfold Buffer.sample at hsample
    rwa [hstart] at hsample
  case isFalse => rfl

end Buffers

namespace Rendering

section Ahead

variable {start n time : Nat} {script later : List Event} {r r' : Rendering}

/-- A rendering with more events behind its script. -/
def withMore (r : Rendering) (later : List Event) : Rendering :=
  { r with script := r.script ++ later }

theorem near_append
    (h : ∀ event ∈ later, time ≤ event.time) :
    near time (script ++ later) = near time script := by
  have hlater : near time later = [] :=
    near_eq_nil fun event hevent => h event (List.mem_of_mem_head? hevent)
  unfold near at hlater ⊢
  rw [List.takeWhile_append, hlater]
  split
  case isTrue hall =>
    rw [List.append_nil]
    exact (List.IsPrefix.eq_of_length (List.takeWhile_prefix _) hall).symm
  case isFalse => rfl

theorem far_append
    (h : ∀ event ∈ later, time ≤ event.time) :
    far time (script ++ later) = far time script ++ later := by
  have hlater : far time later = later :=
    far_eq_self fun event hevent => h event (List.mem_of_mem_head? hevent)
  unfold far at hlater ⊢
  rw [List.dropWhile_append, hlater]
  split
  case isTrue hnil => rw [List.isEmpty_iff.1 hnil, List.nil_append]
  case isFalse => rfl

/-- Events that come later change nothing in a block. -/
theorem stepBlock_withMore
    (h : ∀ event ∈ later, r.rendered + n ≤ event.time) :
    stepBlock start n (r.withMore later) = (stepBlock start n r).map (·.withMore later) := by
  unfold stepBlock withMore
  dsimp only
  rw [near_append h, far_append h]
  cases sendAll start (near (r.rendered + n) r.script) r.session with
  | error i => rfl
  | ok s => rfl

/-- Events that come later change nothing in a run. -/
theorem runAll_withMore
    {ns : List Nat}
    (h : ∀ event ∈ later, r.rendered + ns.sum ≤ event.time) :
    runAll start ns (r.withMore later) = (runAll start ns r).map (·.withMore later) := by
  induction ns generalizing r with
  | nil => rfl
  | cons n ns ih =>
      have hfirst : ∀ event ∈ later, r.rendered + n ≤ event.time := by
        intro event hevent
        have hle := h event hevent
        rw [List.sum_cons] at hle
        omega
      unfold runAll
      rw [stepBlock_withMore hfirst]
      cases hstep : stepBlock start n r with
      | error i => rfl
      | ok next =>
          obtain ⟨s, _, rfl⟩ := stepBlock_eq_ok hstep
          refine ih fun event hevent => ?_
          have hle := h event hevent
          rw [List.sum_cons] at hle
          show r.rendered + n + ns.sum ≤ event.time
          omega

/-- What is left of a script was in it. -/
theorem mem_script_of_runAll
    {ns : List Nat}
    (hrun : runAll start ns r = .ok r')
    {event : Event}
    (h : event ∈ r'.script) :
    event ∈ r.script := by
  induction ns generalizing r with
  | nil =>
      cases hrun
      exact h
  | cons n ns ih =>
      obtain ⟨next, hstep, hrest⟩ := exists_stepBlock_of_runAll hrun
      obtain ⟨s, _, rfl⟩ := stepBlock_eq_ok hstep
      exact (List.dropWhile_suffix _).mem (ih hrest)

/-- When a rendering has come to the end of its script, all of it has been sent. -/
theorem InStep.script_eq_nil
    {block voices : Nat}
    (h : r.InStep start block voices)
    (hall : ∀ event ∈ r.script, event.time < r.rendered) :
    r.script = [] := by
  cases hscript : r.script with
  | nil => rfl
  | cons event script =>
      have hle := h.head event (by rw [hscript]; rfl)
      have hlt := hall event (by rw [hscript]; exact List.mem_cons_self)
      omega

end Ahead

section Behind

variable {start shift n block voices : Nat} {base : Recording}
  {long short short' : Rendering}

/-- A rendering goes along with another one that began later, and records behind `base`. -/
structure Behind (shift : Nat) (base : Recording) (long short : Rendering) : Prop where
  session : long.session = short.session
  script : long.script = short.script.map (delayed shift)
  rendered : long.rendered = shift + short.rendered
  recording : long.recording = base.followedBy short.recording
  shape : long.out.voices = short.out.voices ∧ long.out.frames = short.out.frames

theorem near_delayed (shift time : Nat) (script : List Event) :
    near (shift + time) (script.map (delayed shift)) = (near time script).map (delayed shift) := by
  have hsame : ((fun event : Event => decide (event.time < shift + time)) ∘ delayed shift)
      = fun event => decide (event.time < time) := by
    funext event
    simp [delayed]
  unfold near
  rw [List.takeWhile_map, hsame]

theorem far_delayed (shift time : Nat) (script : List Event) :
    far (shift + time) (script.map (delayed shift)) = (far time script).map (delayed shift) := by
  have hsame : ((fun event : Event => decide (event.time < shift + time)) ∘ delayed shift)
      = fun event => decide (event.time < time) := by
    funext event
    simp [delayed]
  unfold far
  rw [List.dropWhile_map, hsame]

/-- Delayed events are sent as if the rendering had begun later. -/
theorem sendAll_delayed (events : List Event) (s : Session) :
    sendAll start (events.map (delayed shift)) s = sendAll (start + shift) events s := by
  induction events generalizing s with
  | nil => rfl
  | cons event events ih =>
      have hmove :
          (delayed shift event).moveTo (start + (delayed shift event).time)
            = event.moveTo (start + shift + event.time) := by
        simp [delayed, Event.moveTo, Nat.add_assoc]
      rw [List.map_cons]
      unfold sendAll
      rw [hmove]
      cases s.send (event.moveTo (start + shift + event.time)) with
      | error refusal left => rfl
      | ok _ s => exact ih s

/-- One block of a rendering that goes along. -/
theorem Behind.stepBlock
    (h : Behind shift base long short)
    (hin : short.InStep (start + shift) block voices)
    (hmax : block ≤ maxBlock)
    (hn : n ≤ block)
    (hreach : Engine.Reachable short.session.engine)
    (hstep : stepBlock (start + shift) n short = .ok short') :
    ∃ long', Rendering.stepBlock start n long = .ok long' ∧ Behind shift base long' short' := by
  obtain ⟨s, hsend, rfl⟩ := stepBlock_eq_ok hstep
  have hstop : long.rendered + n = shift + (short.rendered + n) := by
    rw [h.rendered, Nat.add_assoc]
  have hsend' : sendAll start (near (long.rendered + n) long.script) long.session = .ok s := by
    rw [hstop, h.script, near_delayed, sendAll_delayed, h.session]
    exact hsend
  have hreach' : Engine.Reachable s.engine := by
    rw [eq_of_sendAll hsend]
    exact hreach.operateAll _
  have hlength := hin.blockLength_eq hmax hn
  obtain ⟨hvoices, hframes⟩ := h.shape
  obtain ⟨hvoices', hframes'⟩ := shape_process s.engine n short.out
  obtain ⟨hvoices'', hframes''⟩ := shape_process s.engine n long.out
  have hengine : (s.engine.process n long.out).1 = (s.engine.process n short.out).1 :=
    Engine.process_fst_congr hvoices hframes
  have hrecorded :
      long.recording.append (s.engine.process n long.out).2 n
        = base.followedBy (short.recording.append (s.engine.process n short.out).2 n) := by
    rw [h.recording, Recording.append_followedBy]
    unfold Recording.append
    rw [Recording.extend_congr short.recording.planes 0]
    intro k hk
    rw [Nat.zero_add, hin.planes, ← hin.shape.1] at hk
    have hextract := Engine.extract_process_congr hreach' hvoices hframes hk n
    rwa [hlength] at hextract
  refine ⟨recordBlock s (far (long.rendered + n) long.script) n long, ?_, ?_, ?_, ?_, hrecorded, ?_⟩
  · unfold Rendering.stepBlock
    dsimp only
    rw [hsend']
  · exact congrArg s.withEngine hengine
  · show far (long.rendered + n) long.script = _
    rw [hstop, h.script, far_delayed]
    rfl
  · exact hstop
  · exact ⟨hvoices''.trans (hvoices.trans hvoices'.symm),
      hframes''.trans (hframes.trans hframes'.symm)⟩

/-- Several blocks of a rendering that goes along. -/
theorem Behind.runAll
    {ns : List Nat}
    (h : Behind shift base long short)
    (hin : short.InStep (start + shift) block voices)
    (hmax : block ≤ maxBlock)
    (hns : ∀ n ∈ ns, n ≤ block)
    (hreach : Engine.Reachable short.session.engine)
    (hrun : runAll (start + shift) ns short = .ok short') :
    ∃ long', Rendering.runAll start ns long = .ok long' ∧ Behind shift base long' short' := by
  induction ns generalizing long short with
  | nil =>
      cases hrun
      exact ⟨long, rfl, h⟩
  | cons n ns ih =>
      have hn := hns n List.mem_cons_self
      obtain ⟨next, hstep, hrest⟩ := exists_stepBlock_of_runAll hrun
      obtain ⟨next', hstep', hnext⟩ := h.stepBlock hin hmax hn hreach hstep
      obtain ⟨long', hrun', hlast⟩ :=
        ih hnext (hin.stepBlock hmax hn hstep).1
          (fun m hm => hns m (List.mem_cons_of_mem _ hm))
          (reachable_of_stepBlock hreach hstep) hrest
      refine ⟨long', ?_, hlast⟩
      unfold Rendering.runAll
      rw [hstep']
      exact hrun'

end Behind

end Rendering

namespace Session

section Parts

variable {s : Session} {script : List Event} {total block : Nat} {r : Rendering}

/-- A rendering that succeeds is a run of its blocks, with a last notice. -/
theorem renderScript_eq_ok
    (h : s.renderScript script total block = .ok r) :
    ∃ last, Rendering.runAll s.engine.clock (Rendering.lengths total (renderedBlock block))
        (s.beginRendering script (renderedBlock block)) = .ok last
      ∧ r = last.finish := by
  rw [renderScript_eq] at h
  cases hrun : Rendering.runAll s.engine.clock
      (Rendering.lengths total (renderedBlock block))
      (s.beginRendering script (renderedBlock block)) with
  | error i =>
      rw [hrun] at h
      cases h
  | ok last =>
      rw [hrun] at h
      cases h
      exact ⟨last, rfl, rfl⟩

/-- When the first part ends, all of its script has been sent. -/
theorem script_eq_nil_of_runAll
    (hall : ∀ event ∈ script, event.time < total)
    {last : Rendering}
    (hrun : Rendering.runAll s.engine.clock (Rendering.lengths total (renderedBlock block))
      (s.beginRendering script (renderedBlock block)) = .ok last) :
    last.script = [] := by
  obtain ⟨hin, hrendered⟩ := inStep_of_runAll hrun
  refine hin.script_eq_nil fun event hevent => ?_
  rw [hrendered]
  exact hall event (Rendering.mem_script_of_runAll hrun hevent)

/-- Up to the seam, the events of the second part change nothing. -/
theorem runAll_ahead
    {last : Rendering}
    (hrun : Rendering.runAll s.engine.clock (Rendering.lengths total (renderedBlock block))
      (s.beginRendering script (renderedBlock block)) = .ok last)
    (second : List Event) :
    Rendering.runAll s.engine.clock (Rendering.lengths total (renderedBlock block))
        (s.beginRendering (script ++ second.map (Rendering.delayed total)) (renderedBlock block))
      = .ok (last.withMore (second.map (Rendering.delayed total))) := by
  have hlater : ∀ event ∈ second.map (Rendering.delayed total),
      (s.beginRendering script (renderedBlock block)).rendered
        + (Rendering.lengths total (renderedBlock block)).sum ≤ event.time := by
    intro event hevent
    obtain ⟨origin, _, rfl⟩ := List.mem_map.1 hevent
    rw [Rendering.sum_lengths]
    show 0 + total ≤ total + origin.time
    omega
  refine (Rendering.runAll_withMore hlater).trans ?_
  rw [hrun]
  rfl

/-- From the seam on, the rendering at once goes along with the second part. -/
theorem behind_seam
    {last : Rendering}
    (hin : last.InStep s.engine.clock block s.engine.capacity)
    (hscript : last.script = [])
    (second : List Event) :
    Rendering.Behind last.rendered last.recording
      (last.withMore (second.map (Rendering.delayed last.rendered)))
      (last.finish.session.beginRendering second block) where
  session := rfl
  script := by
    show last.script ++ _ = _
    rw [hscript]
    rfl
  rendered := rfl
  recording := by
    refine (Recording.followedBy_empty ?_ _).symm
    exact hin.planes.trans (congrArg (· * streamCount) hin.capacity.symm)
  shape := ⟨hin.shape.1.trans hin.capacity.symm, hin.shape.2⟩

/--
A script whose events all fall within whole blocks is rendered, and then another one
from there on.  Then both are also rendered at once, the second delayed by the length
of the first: what is recorded are the two recordings, one behind the other, and the
session ends the same.
-/
theorem renders_in_parts
    (hreach : Engine.Reachable s.engine)
    {first second : List Event} {length more block : Nat} {a b : Rendering}
    (hwhole : renderedBlock block ∣ length)
    (hfirst : ∀ event ∈ first, event.time < length)
    (ha : s.renderScript first length block = .ok a)
    (hb : a.session.renderScript second more block = .ok b) :
    ∃ r, s.renderScript (first ++ second.map fun event => event.moveTo (length + event.time))
          (length + more) block = .ok r
      ∧ r.recording = a.recording.followedBy b.recording
      ∧ a.recording.planes.length = s.engine.capacity * 8
      ∧ b.recording.planes.length = s.engine.capacity * 8
      ∧ r.session = b.session := by
  obtain ⟨hpos, hmax⟩ := bounds_renderedBlock block
  obtain ⟨a, hruna, rfl⟩ := renderScript_eq_ok ha
  obtain ⟨b, hrunb, rfl⟩ := renderScript_eq_ok hb
  obtain ⟨hina, rfl⟩ := inStep_of_runAll hruna
  obtain ⟨hinb, _⟩ := inStep_of_runAll hrunb
  have hreacha : Engine.Reachable a.session.engine := by
    rw [Rendering.engine_of_runAll hruna]
    exact hreach.operateAll _
  have hseam := behind_seam hina (script_eq_nil_of_runAll hfirst hruna) second
  have hbegin := Rendering.inStep_beginRendering a.finish.session second (renderedBlock block)
  have hclock : a.finish.session.engine.clock = s.engine.clock + a.rendered := hina.clock
  rw [hclock] at hrunb hbegin
  obtain ⟨long, hrun, hlong⟩ :=
    hseam.runAll hbegin hmax (fun _ => Rendering.le_of_mem_lengths hpos) hreacha hrunb
  have hlengths : Rendering.lengths (a.rendered + more) (renderedBlock block)
      = Rendering.lengths a.rendered (renderedBlock block)
        ++ Rendering.lengths more (renderedBlock block) := by
    obtain ⟨k, hk⟩ := hwhole
    rw [hk, Nat.mul_comm, Rendering.lengths_add hpos, Rendering.lengths_mul hpos]
  refine ⟨long.finish, ?_, hlong.recording, hina.planes,
    hinb.planes.trans (congrArg (· * streamCount) hina.capacity), hlong.session⟩
  show s.renderScript (first ++ second.map (Rendering.delayed a.rendered)) (a.rendered + more) block
    = _
  rw [renderScript_eq, hlengths, Rendering.runAll_append, runAll_ahead hruna second]
  exact congrArg (·.map Rendering.finish) hrun

/-- A note that begins in the first part ends in the second one, in a last short block. -/
theorem renders_soloist :
    Engine.Reachable soloist.engine
      ∧ renderedBlock 4 ∣ 8
      ∧ (∀ event ∈ [Event.noteOn 3 1 60.0 1.0 1], event.time < 8)
      ∧ ∃ a b r, soloist.renderScript [Event.noteOn 3 1 60.0 1.0 1] 8 4 = .ok a
        ∧ a.session.renderScript [Event.noteOff 3 1 4] 6 4 = .ok b
        ∧ soloist.renderScript [Event.noteOn 3 1 60.0 1.0 1, Event.noteOff 3 1 12] 14 4 = .ok r
        ∧ r.recording = a.recording.followedBy b.recording
        ∧ r.recording.stream? 0 .gate = some #[0, 1, 1, 1, 1, 1, 1, 1, 1, 1, 1, 1, 0, 0]
        ∧ r.session = b.session := by
  have hreach : Engine.Reachable soloist.engine :=
    Engine.Reachable.operateAll
      (.build (show Engine.build 2 48000.0 (EventQueue.empty 2) {} .plain = .ok _ by rfl)) _
  have hparts :
      ((soloist.renderScript [Event.noteOn 3 1 60.0 1.0 1] 8 4).bind fun a =>
        a.session.renderScript [Event.noteOff 3 1 4] 6 4).isOk = true := by
    decide +kernel
  have hgate :
      (soloist.renderScript [Event.noteOn 3 1 60.0 1.0 1, Event.noteOff 3 1 12] 14 4).toOption.bind
          (fun r => r.recording.stream? 0 .gate)
        = some #[0, 1, 1, 1, 1, 1, 1, 1, 1, 1, 1, 1, 0, 0] := by
    decide +kernel
  have hscript :
      [Event.noteOn 3 1 60.0 1.0 1]
          ++ [Event.noteOff 3 1 4].map (fun event => event.moveTo (8 + event.time))
        = [Event.noteOn 3 1 60.0 1.0 1, Event.noteOff 3 1 12] :=
    rfl
  cases ha : soloist.renderScript [Event.noteOn 3 1 60.0 1.0 1] 8 4 with
  | error i =>
      rw [ha] at hparts
      cases hparts
  | ok a =>
      rw [ha, Except.bind] at hparts
      cases hb : a.session.renderScript [Event.noteOff 3 1 4] 6 4 with
      | error i =>
          rw [hb] at hparts
          cases hparts
      | ok b =>
          obtain ⟨r, hr, hrecording, _, _, hsession⟩ :=
            renders_in_parts hreach (by decide) (by decide) ha hb
          rw [hscript] at hr
          rw [hr] at hgate
          exact ⟨hreach, by decide, by decide, a, b, r, rfl, hb, hr, hrecording, hgate, hsession⟩

end Parts

end Session
end Polyphony
