import Polyphony.Proofs.Session.Sending

/-!
# The sources of notes

A session starts every note under a source of its own, by which the note is ended
later.  The sources are counted: they go up from one, and behind the greatest one they
begin anew with one, so that zero is left out.

**Register.**  A register follows a session through the calls of its host.  It keeps
the sources that the host was given, in their order, and nothing of the calls that were
refused.

**Results.**
* `sourceAfter_nthSource`: one source after the other is taken in turn.
* `startNote_eq`: a note is refused if it comes too early or finds no room, and
  otherwise started under the next source.
* `Counted.enter`: whatever is called next, the sources stay counted.
* `sources_fresh`: notes have sources of their own, and refused ones use none up.
-/

namespace Polyphony

namespace Session

section Turns

/-- The number of sources, zero left out. -/
def sourceCount : Nat := 2 ^ 32 - 1

/-- The source of the note that is started after `i` others. -/
def nthSource (i : Nat) : UInt32 :=
  UInt32.ofNat (i % sourceCount + 1)

theorem toNat_nthSource (i : Nat) :
    (nthSource i).toNat = i % sourceCount + 1 := by
  have hlt : i % sourceCount + 1 < UInt32.size :=
    Nat.succ_lt_succ (Nat.mod_lt i (by decide))
  exact UInt32.toNat_ofNat_of_lt' hlt

theorem nthSource_ne_zero (i : Nat) :
    nthSource i ≠ 0 := by
  intro hzero
  have hnat := congrArg UInt32.toNat hzero
  rw [toNat_nthSource] at hnat
  cases hnat

/-- The sources are taken in turn. -/
theorem sourceAfter_nthSource (i : Nat) :
    sourceAfter (nthSource i) = nthSource (i + 1) := by
  have hthis : (nthSource i).toNat = i % 4294967295 + 1 := toNat_nthSource i
  have hnext : (nthSource (i + 1)).toNat = (i + 1) % 4294967295 + 1 := toNat_nthSource (i + 1)
  have hadd : (nthSource i + 1).toNat = ((nthSource i).toNat + 1) % 4294967296 :=
    UInt32.toNat_add _ _
  apply UInt32.toNat_inj.1
  unfold sourceAfter
  split
  case isTrue hlast =>
    have hzero : (nthSource i + 1).toNat = 0 := congrArg UInt32.toNat hlast
    have hone : (1 : UInt32).toNat = 1 := rfl
    omega
  case isFalse hmore =>
    have hpos : (nthSource i + 1).toNat ≠ 0 := fun h => hmore (UInt32.toNat_inj.1 h)
    omega

/-- Before they begin anew, no two sources are alike. -/
theorem nthSource_inj
    {i j : Nat}
    (hi : i < sourceCount)
    (hj : j < sourceCount)
    (h : nthSource i = nthSource j) :
    i = j := by
  have hnat := congrArg UInt32.toNat h
  rw [toNat_nthSource, toNat_nthSource, Nat.mod_eq_of_lt hi, Nat.mod_eq_of_lt hj] at hnat
  exact Nat.succ.inj hnat

/-- As many sources as there are, taken in turn from the first one on, are all different. -/
theorem nodup_map_nthSource
    {n : Nat}
    (h : n ≤ sourceCount) :
    ((List.range n).map nthSource).Nodup := by
  refine List.Nodup.map_on (fun i hi j hj heq => ?_) List.nodup_range
  exact nthSource_inj (Nat.lt_of_lt_of_le (List.mem_range.1 hi) h)
    (Nat.lt_of_lt_of_le (List.mem_range.1 hj) h) heq

end Turns

section Answers

variable {s after : Session}

theorem nextSource_of_send
    {event : Event}
    (h : s.send event = .ok () after) :
    after.nextSource = s.nextSource := by
  obtain ⟨engine, -, rfl⟩ := exists_push_of_send h
  rfl

theorem nextSource_of_configure
    {next : Settings}
    (h : s.configure next = .ok () after) :
    after.nextSource = s.nextSource := by
  obtain ⟨mailbox, rfl⟩ := eq_of_configure h
  rfl

/--
A note is refused if it comes before the last event or finds no room, and is handed
back under the source that it would have had.  Otherwise it is sent under that source.
-/
theorem startNote_eq
    (s : Session)
    (channel : UInt8) (note velocity : Float32) (time : Nat) :
    s.startNote channel note velocity time =
      if time < s.engine.queue.lastTime then
        .error (.outOfOrder (Event.noteOn s.nextSource channel note velocity time)) s
      else if s.engine.queue.capacity ≤ s.engine.queue.length then
        .error (.full (Event.noteOn s.nextSource channel note velocity time)) s
      else
        .ok s.nextSource
          { s.withSent [Event.noteOn s.nextSource channel note velocity time] with
            nextSource := sourceAfter s.nextSource } := by
  have htime (source : UInt32) : (Event.noteOn source channel note velocity time).time = time := rfl
  rw [startNote, send_eq, htime]
  by_cases hearly : time < s.engine.queue.lastTime
  · rw [if_pos hearly, if_pos hearly]
  · rw [if_neg hearly, if_neg hearly]
    by_cases hfull : s.engine.queue.capacity ≤ s.engine.queue.length
    · rw [if_pos hfull, if_pos hfull]
    · rw [if_neg hfull, if_neg hfull]

end Answers

end Session

/-- A session, with the sources that its host was given for notes. -/
structure Register where
  session : Session
  sources : List UInt32 := []

namespace Register

/-- What a host does with its session. -/
inductive Call
  /-- A note is started, under a source of its own. -/
  | startNote (channel : UInt8) (note velocity : Float32) (time : Nat)
  /-- A note is ended. -/
  | endNote (source : UInt32) (channel : UInt8) (time : Nat)
  /-- An event of any kind is sent, under any source. -/
  | send (event : Event)
  /-- Settings are asked for. -/
  | configure (next : Settings)
  /-- The engine is operated: it processes a block, for instance. -/
  | operate (op : Operation)

/-- The register after a note was asked for; only a note that is started has a source. -/
def started (r : Register) : Attempt Refusal UInt32 Session → Register
  | .ok source session => { session, sources := r.sources ++ [source] }
  | .error _ session => { r with session }

/-- The register after anything else was asked for. -/
def moved {fault : Type} (r : Register) (asked : Attempt fault Unit Session) : Register :=
  { r with session := asked.state }

/-- The register after one more call. -/
def enter (r : Register) : Call → Register
  | .startNote channel note velocity time =>
      r.started (r.session.startNote channel note velocity time)
  | .endNote source channel time => r.moved (r.session.endNote source channel time)
  | .send event => r.moved (r.session.send event)
  | .configure next => r.moved (r.session.configure next)
  | .operate op => { r with session := r.session.withEngine (r.session.engine.operate op) }

/-- The register of a session with which one thing is done after the other. -/
def after (s : Session) (calls : List Call) : Register :=
  calls.foldl enter { session := s }

section Counting

/-- The sources were given in turn, from the first one on, and the next one is still to come. -/
structure Counted (r : Register) : Prop where
  in_turn : r.sources = (List.range r.sources.length).map Session.nthSource
  next : r.session.nextSource = Session.nthSource r.sources.length

variable {r : Register}

/-- A call without a note of its own keeps the count, if it leaves the next source alone. -/
theorem Counted.moved
    {fault : Type} {asked : Attempt fault Unit Session}
    (h : r.Counted)
    (hharmless : asked.Harmless r.session)
    (hsame : ∀ session, asked = .ok () session → session.nextSource = r.session.nextSource) :
    (r.moved asked).Counted := by
  cases asked with
  | error reason left =>
      obtain rfl := hharmless reason left rfl
      exact h
  | ok _ session => exact ⟨h.in_turn, (hsame session rfl).trans h.next⟩

theorem Counted.startNote
    (h : r.Counted)
    (channel : UInt8) (note velocity : Float32) (time : Nat) :
    (r.started (r.session.startNote channel note velocity time)).Counted := by
  rw [Session.startNote_eq]
  split
  · exact h
  · split
    · exact h
    · unfold started
      dsimp only
      constructor
      · rw [List.length_append, List.length_singleton, List.range_succ, List.map_append,
          ← h.in_turn, h.next]
        rfl
      · rw [List.length_append, List.length_singleton, ← Session.sourceAfter_nthSource, h.next]

/-- Whatever is called next, the sources stay counted. -/
theorem Counted.enter
    (h : r.Counted)
    (call : Call) :
    (r.enter call).Counted := by
  cases call with
  | startNote channel note velocity time => exact h.startNote channel note velocity time
  | endNote source channel time =>
      exact h.moved (r.session.harmless_send _) fun _ => Session.nextSource_of_send
  | send event => exact h.moved (r.session.harmless_send event) fun _ => Session.nextSource_of_send
  | configure next =>
      exact h.moved (r.session.harmless_configure next) fun _ => Session.nextSource_of_configure
  | operate op => exact ⟨h.in_turn, h.next⟩

theorem Counted.foldl_enter
    (h : r.Counted)
    (calls : List Call) :
    (calls.foldl Register.enter r).Counted := by
  induction calls generalizing r with
  | nil => exact h
  | cons call calls ih => exact ih (h.enter call)

/-- A session that has just begun has given no sources. -/
theorem counted_start
    {capacity : Nat} {rate : Float32} {queue : EventQueue} {library : Library} {s : Session}
    (h : Session.start capacity rate queue library = .ok s) :
    Counted { session := s } := by
  obtain ⟨e, -, rfl⟩ := Session.exists_build_of_start h
  exact ⟨rfl, rfl⟩

/-- What the sources are that a host was given, and what becomes of the next note. -/
structure Fresh (r : Register) : Prop where
  /-- No note has the source zero. -/
  ne_zero : ∀ source ∈ r.sources, source ≠ 0
  /-- Among fewer than two to the power 32 notes, no two have the same source. -/
  distinct : r.sources.length < 2 ^ 32 → r.sources.Nodup
  /-- The sources were given in turn: none was used up in between. -/
  in_turn : r.sources = (List.range r.sources.length).map Session.nthSource
  /-- A note is refused if it comes too early or finds no room; else it gets the next source. -/
  startNote_eq : ∀ channel note velocity time,
    r.session.startNote channel note velocity time =
      let event :=
        Event.noteOn (Session.nthSource r.sources.length) channel note velocity time
      if time < r.session.engine.queue.lastTime then .error (.outOfOrder event) r.session
      else if r.session.engine.queue.capacity ≤ r.session.engine.queue.length then
        .error (.full event) r.session
      else
        .ok event.source
          { r.session.withSent [event] with
            nextSource := Session.nthSource (r.sources.length + 1) }
  /-- A note that is refused changes neither queue nor sources, nor anything else. -/
  refused : ∀ channel note velocity time refusal after,
    r.session.startNote channel note velocity time = .error refusal after →
      r.enter (.startNote channel note velocity time) = r

theorem Counted.fresh
    (h : r.Counted) :
    r.Fresh := by
  refine ⟨?_, fun hfew => ?_, h.in_turn, ?_, ?_⟩
  · rw [h.in_turn]
    intro source hsource
    obtain ⟨i, -, rfl⟩ := List.mem_map.1 hsource
    exact Session.nthSource_ne_zero i
  · rw [h.in_turn]
    exact Session.nodup_map_nthSource (Nat.le_of_lt_succ hfew)
  · intro channel note velocity time
    rw [Session.startNote_eq, h.next, Session.sourceAfter_nthSource]
    rfl
  · intro channel note velocity time refusal after hrefused
    have hsame : after = r.session := r.session.harmless_startNote _ _ _ _ refusal after hrefused
    unfold Register.enter
    dsimp only
    rw [hrefused, hsame]
    rfl

/--
However a host starts and ends notes, sends events and configures a session while its
engine is operated: the sources of its notes are given in turn, never zero, and all
different as long as there are fewer than two to the power 32.  A note is refused if it
comes too early or finds no room, which uses no source up and leaves everything as it
was.
-/
theorem sources_fresh
    {capacity : Nat} {rate : Float32} {queue : EventQueue} {library : Library} {s : Session}
    (hstart : Session.start capacity rate queue library = .ok s)
    (calls : List Call) :
    (after s calls).Fresh :=
  ((counted_start hstart).foldl_enter calls).fresh

/-- A session of two voices that has just begun, with room for one event. -/
def narrowSession : Session where
  engine := (Engine.idle 2 48000.0 (EventQueue.empty 1) {} .plain).attachMailbox
  sampleRate := 48000.0

/-- Four notes: the second one finds the queue full, the third one is too early. -/
def fourNotes : List Call :=
  [.startNote 1 60.0 1.0 5, .startNote 1 62.0 1.0 6, .operate (.process 8 (Buffer.silent 2 8)),
    .startNote 1 64.0 1.0 3, .configure { voices := 1 }, .startNote 1 65.0 1.0 9]

/-- The first note and the fourth one get the first two sources. -/
theorem fresh_fourNotes :
    Session.start 2 48000.0 (EventQueue.empty 1) .plain = .ok narrowSession
      ∧ (after narrowSession fourNotes).sources = [1, 2]
      ∧ (after narrowSession fourNotes).sources.Nodup
      ∧ after narrowSession (fourNotes.take 2) = after narrowSession (fourNotes.take 1)
      ∧ after narrowSession (fourNotes.take 4) = after narrowSession (fourNotes.take 3) := by
  have hstart : Session.start 2 48000.0 (EventQueue.empty 1) .plain = .ok narrowSession := rfl
  have hfresh (calls : List Call) : (after narrowSession calls).Fresh := sources_fresh hstart calls
  have hlength : (after narrowSession fourNotes).sources.length = 2 := by
    decide +kernel
  have hfull :
      (after narrowSession (fourNotes.take 1)).session.startNote 1 62.0 1.0 6
        = .error (.full (Event.noteOn 2 1 62.0 1.0 6))
            (after narrowSession (fourNotes.take 1)).session := by
    rw [(hfresh _).startNote_eq, if_neg (by decide +kernel), if_pos (by decide +kernel)]
    rfl
  have hearly :
      (after narrowSession (fourNotes.take 3)).session.startNote 1 64.0 1.0 3
        = .error (.outOfOrder (Event.noteOn 2 1 64.0 1.0 3))
            (after narrowSession (fourNotes.take 3)).session := by
    rw [(hfresh _).startNote_eq, if_pos (by decide +kernel)]
    rfl
  refine ⟨hstart, ?_, (hfresh fourNotes).distinct ?_, ?_, ?_⟩
  · rw [(hfresh fourNotes).in_turn, hlength]
    decide
  · rw [hlength]
    decide
  · exact (hfresh _).refused _ _ _ _ _ _ hfull
  · exact (hfresh _).refused _ _ _ _ _ _ hearly

end Counting

end Register
end Polyphony
