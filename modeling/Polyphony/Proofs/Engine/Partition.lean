import Polyphony.Proofs.Engine.Blocks
import Polyphony.Proofs.Engine.Boundary
import Polyphony.Proofs.Engine.Clock
import Polyphony.Proofs.Engine.Concord

/-!
# Cutting time into blocks

A host may cut the frames that it wants into blocks as it likes.  Every way to
cut them is compared with the one in which every block has a single frame.

**Time.**  The frames are cut at times that can be counted.  A block whose end cannot
be counted ends the program, or has its end at a time long ago, when nothing is due:
there it does matter how the frames are cut.

**Results.**
* `processAllBy_eq`, `streamedBy?_eq`: calls within time are processed at exact times.
* `partition_independent`: two gentle ways to cut the same number of frames are
  heard alike and leave the same notes on the voices, as long as no note has a
  channel of its own, nothing drifts and time can be counted.
* `gate_of_latecomer`: beyond the greatest time they are not.
-/

namespace Polyphony

/-- A call of a host: how many frames it asks for, and the buffer they go into. -/
structure Call where
  frames : Nat
  out : Buffer

namespace Call

/-- Whether a call asks for a block that the buffer has room for, with `count` voices. -/
structure Fits (count : Nat) (c : Call) : Prop where
  frames_pos : 0 < c.frames
  frames_le : c.frames ≤ maxBlock
  room : c.frames ≤ c.out.frames
  places : count ≤ c.out.voices

instance (count : Nat) (c : Call) : Decidable (c.Fits count) :=
  decidable_of_iff
    (0 < c.frames ∧ c.frames ≤ maxBlock ∧ c.frames ≤ c.out.frames ∧ count ≤ c.out.voices)
    ⟨fun ⟨hpos, hle, hroom, hplaces⟩ => ⟨hpos, hle, hroom, hplaces⟩,
      fun h => ⟨h.frames_pos, h.frames_le, h.room, h.places⟩⟩

/-- The number of frames of several calls. -/
def total : List Call → Nat
  | [] => 0
  | c :: calls => c.frames + total calls

end Call

namespace Engine

section Calls

/-- The engine after several calls. -/
def processAll : Engine → List Call → Engine
  | e, [] => e
  | e, c :: calls => processAll (e.process c.frames c.out).1 calls

/-- What several calls put out of a stream, one call behind the other. -/
def streamed? : Engine → List Call → Nat → Stream → Option (List Float32)
  | _, [], _, _ => some []
  | e, c :: calls, id, s => do
      let plane ← (e.process c.frames c.out).2.stream? id s
      let rest ← streamed? (e.process c.frames c.out).1 calls id s
      return plane.toList.take c.frames ++ rest

/-- The engine after several calls, if the program does not end. -/
def processAllBy (o : Overflow) : Engine → List Call → Option Engine
  | e, [] => some e
  | e, c :: calls => do
      let (after, _) ← e.processBy o c.frames c.out
      processAllBy o after calls

/-- What several calls put out of a stream, if the program does not end. -/
def streamedBy? (o : Overflow) : Engine → List Call → Nat → Stream → Option (List Float32)
  | _, [], _, _ => some []
  | e, c :: calls, id, s => do
      let (after, out) ← e.processBy o c.frames c.out
      let plane ← out.stream? id s
      let rest ← streamedBy? o after calls id s
      return plane.toList.take c.frames ++ rest

/-- Whether every event of several calls is gentle when its turn comes. -/
def GentleCalls : Engine → List Call → Prop
  | _, [] => True
  | e, c :: calls => e.GentleBlock c.frames ∧ GentleCalls (e.process c.frames c.out).1 calls

instance decidableGentleCalls : (e : Engine) → (calls : List Call) →
    Decidable (e.GentleCalls calls)
  | _, [] => isTrue trivial
  | e, c :: calls =>
      have := decidableGentleCalls (e.process c.frames c.out).1 calls
      inferInstanceAs (Decidable (_ ∧ _))

/-- What a voice does, for whom, on which channel and with which note. -/
def noteOf (e : Engine) (id : Nat) : Option (Phase × Option UInt32 × UInt8 × Float32) :=
  (e.bank.voice? id).map fun v => (v.phase, v.owner, v.channel, v.note)

end Calls

section Time

variable {e : Engine} {c : Call} {calls : List Call}

/-- A call within time is processed, and leaves the calls behind it within time. -/
theorem processBy_call
    (h : e.clock + Call.total (c :: calls) ≤ maxCount)
    (o : Overflow) :
    e.processBy o c.frames c.out = some (e.process c.frames c.out)
      ∧ (e.process c.frames c.out).1.clock + Call.total calls ≤ maxCount := by
  have hlength := blockLength_le c.frames c.out
  rw [Call.total] at h
  constructor
  · exact processBy_eq (by omega) o
  · rw [clock_process]
    omega

theorem processAllBy_eq
    (h : e.clock + Call.total calls ≤ maxCount)
    (o : Overflow) :
    e.processAllBy o calls = some (e.processAll calls) := by
  induction calls generalizing e with
  | nil => rfl
  | cons c calls ih =>
      obtain ⟨hcall, hrest⟩ := processBy_call h o
      unfold processAllBy
      rw [hcall]
      exact ih hrest

theorem streamedBy?_eq
    (h : e.clock + Call.total calls ≤ maxCount)
    (o : Overflow) (id : Nat) (s : Stream) :
    e.streamedBy? o calls id s = e.streamed? calls id s := by
  induction calls generalizing e with
  | nil => rfl
  | cons c calls ih =>
      obtain ⟨hcall, hrest⟩ := processBy_call h o
      unfold streamedBy? streamed?
      rw [hcall, ← ih hrest]
      rfl

end Time

section Runs

variable {e f : Engine} {n : Nat}

theorem Abreast.ready
    (h : Abreast e f)
    (hready : e.Ready) :
    f.Ready := by
  constructor
  · rw [h.settings]
    exact hready.still
  · rw [h.count, h.length]
    exact hready.fits
  · intro w hw role
    obtain ⟨v, hv, hcontrols⟩ := h.mem_active hw
    rw [hcontrols]
    exact hready.settled v hv role
  · rw [h.waiting]
    exact hready.sorted

theorem background_finish (e : Engine) (n : Nat) :
    (e.finish n).background = { e.background with clock := e.background.clock + n } := by
  simp [background, finish, finishAt, dropPending, capacity, Bank.capacity, Bank.mapAll]

/-- Without drift a block moves the clock, takes events, and keeps the rest of the background. -/
theorem background_renderBlock
    (hstill : ¬ 0.0 < e.settings.drift)
    (n : Nat) (out : Buffer) :
    (e.renderBlock n out).1.background =
      { e.background with
        clock := e.clock + n
        queue := e.queue.dropBefore (e.clock + n) } := by
  have hperformed := background_performed hstill n
  have hclock : (e.performed n).background.clock = e.clock := congrArg Background.clock hperformed
  rw [renderBlock_fst, background_finish, background_renderVoices, hclock, hperformed]

theorem GentleTicks.add
    {m : Nat}
    (h : e.GentleTicks m)
    (h' : (tick^[m] e).GentleTicks n) :
    e.GentleTicks (m + n) := by
  intro k hk
  by_cases hlt : k < m
  · exact h k hlt
  · obtain ⟨j, rfl⟩ := Nat.exists_eq_add_of_le (Nat.not_lt.1 hlt)
    have hgentle := h' j (by omega)
    rw [← Function.iterate_add_apply, Nat.add_comm j m] at hgentle
    exact hgentle

/-- A gentle call is as many ticks as it has frames. -/
theorem Ready.process_eq_ticks
    {c : Call}
    (hready : e.Ready)
    (hawaited : e.awaited? = none)
    (hprotocol : e.settings.protocol ≠ .expressive)
    (hfits : c.Fits e.bank.count)
    (hgentle : e.GentleBlock c.frames) :
    Abreast (tick^[c.frames] e) (e.process c.frames c.out).1
      ∧ (e.process c.frames c.out).1.Ready
      ∧ e.GentleTicks c.frames
      ∧ ∀ id < c.out.voices, ∀ s, ∃ plane,
          (e.process c.frames c.out).2.stream? id s = some plane
            ∧ s.Alike e.settings.protocol (plane.toList.take c.frames)
                (heard tick e id s c.frames) := by
  obtain ⟨hpos, hmax, hroom, hplaces⟩ := hfits
  rw [process_eq hawaited hpos hmax hroom]
  have hblock := abreast_renderBlock c.out hready hpos hgentle hplaces
  obtain ⟨hticks, hheard, hgentle'⟩ := hready.elapse_eq_ticks hpos hgentle
  refine ⟨hticks.symm.trans hblock, hblock.ready (hready.elapse hpos hgentle), hgentle', ?_⟩
  intro id hid s
  rw [← hheard]
  exact stream?_renderBlock hready hprotocol hpos hroom hgentle hplaces hid s

/-- A gentle run of calls is as many ticks as it has frames. -/
theorem Ready.calls_eq_ticks
    {calls : List Call}
    (hready : e.Ready)
    (hawaited : e.awaited? = none)
    (hprotocol : e.settings.protocol ≠ .expressive)
    (hfits : ∀ c ∈ calls, c.Fits e.bank.count)
    (hgentle : e.GentleCalls calls) :
    Abreast (tick^[Call.total calls] e) (e.processAll calls)
      ∧ e.GentleTicks (Call.total calls)
      ∧ ∀ id, (∀ c ∈ calls, id < c.out.voices) → ∀ s, ∃ xs,
          e.streamed? calls id s = some xs
            ∧ s.Alike e.settings.protocol xs (heard tick e id s (Call.total calls)) := by
  induction calls generalizing e with
  | nil =>
      refine ⟨Abreast.refl e, fun _ hk => absurd hk (Nat.not_lt_zero _), ?_⟩
      intro id _ s
      exact ⟨[], rfl, Stream.Alike.refl _ _ _⟩
  | cons c calls ih =>
      obtain ⟨hfirst, hrest⟩ := hgentle
      have hfit := hfits c List.mem_cons_self
      obtain ⟨habreast, hready', hticks, hstreams⟩ :=
        hready.process_eq_ticks hawaited hprotocol hfit hfirst
      have hback := background_renderBlock hready.still c.frames c.out
      rw [← process_eq hawaited hfit.frames_pos hfit.frames_le hfit.room] at hback
      have hsettings : (e.process c.frames c.out).1.settings = e.settings :=
        congrArg Background.settings hback
      have hcount : (e.process c.frames c.out).1.bank.count = e.bank.count :=
        congrArg Background.count hback
      have hawaited' : (e.process c.frames c.out).1.awaited? = none :=
        (congrArg (fun b : Background => (b.mailbox.bind Mailbox.newest?).or b.staged)
          hback).trans hawaited
      rw [← hsettings] at hprotocol
      obtain ⟨habreast', hticks', hstreams'⟩ := ih hready' hawaited' hprotocol
        (fun d hd => hcount ▸ hfits d (List.mem_cons_of_mem _ hd)) hrest
      obtain ⟨hsame, hheard, hticks''⟩ := habreast.symm.ticks hready' hticks'
      rw [Call.total]
      refine ⟨?_, hticks.add hticks'', ?_⟩
      · rw [Nat.add_comm, Function.iterate_add_apply]
        exact hsame.symm.trans habreast'
      · intro id hid s
        obtain ⟨plane, hplane, halike⟩ := hstreams id (hid c List.mem_cons_self) s
        obtain ⟨xs, hxs, halike'⟩ :=
          hstreams' id (fun d hd => hid d (List.mem_cons_of_mem _ hd)) s
        rw [hsettings, ← hheard] at halike'
        refine ⟨plane.toList.take c.frames ++ xs, ?_, ?_⟩
        · unfold streamed?
          rw [hplane, hxs]
          rfl
        · rw [heard_add]
          exact halike.append halike'

theorem ready_of_reachable
    (h : Reachable e)
    (hdrift : (e.settings.drift == 0.0) = true) :
    e.Ready := by
  have hrest := atRest_of_reachable h
  constructor
  · rcases (Binary32.beq_zero_iff _).1 hdrift with hzero | hzero
    · rw [hzero]
      decide
    · rw [hzero]
      decide
  · exact (concordant_invariant.of_reachable h).fits_voices
  · intro v hv
    exact hrest.voices v (List.mem_of_mem_take hv)
  · exact hrest.queue.pairwise

theorem Matches.noteOf
    {rule : Rule}
    (h : Matches rule e f)
    (id : Nat) :
    f.noteOf id = e.noteOf id := by
  have hnote (g : Engine) :
      g.noteOf id = ((g.bank.voice? id).map fun v => v.toTenancy.essence).map fun tn =>
        (tn.phase, tn.owner, tn.channel, tn.note) := by
    unfold Engine.noteOf
    rw [Option.map_map]
    rfl
  rw [hnote, hnote, h.essence_voice?]

/--
How a host cuts time into blocks makes no difference.  If notes share their
channels, nothing drifts, no settings wait and the end can be counted, then two gentle
runs of calls that ask for as many frames put out the same streams, sums of two ramps
up to the sign of zeros, and leave every voice with the same note and the clock at the
same time, whatever becomes of times that cannot be counted.
-/
theorem partition_independent
    {calls calls' : List Call}
    (hreach : Reachable e)
    (hprotocol : e.settings.protocol ≠ .expressive)
    (hdrift : (e.settings.drift == 0.0) = true)
    (hawaited : e.awaited? = none)
    (hfits : ∀ c ∈ calls, c.Fits e.bank.count)
    (hfits' : ∀ c ∈ calls', c.Fits e.bank.count)
    (htotal : Call.total calls = Call.total calls')
    (hgentle : e.GentleCalls calls)
    (hgentle' : e.GentleCalls calls')
    (htime : e.clock + Call.total calls ≤ maxCount)
    (o : Overflow) :
    (∀ id, (∀ c ∈ calls ++ calls', id < c.out.voices) → ∀ s, ∃ xs ys,
        e.streamedBy? o calls id s = some xs ∧ e.streamedBy? o calls' id s = some ys
          ∧ xs.length = Call.total calls ∧ s.Alike e.settings.protocol xs ys)
      ∧ ∃ last last', e.processAllBy o calls = some last ∧ e.processAllBy o calls' = some last'
          ∧ (∀ id, last.noteOf id = last'.noteOf id)
          ∧ last.clock = last'.clock := by
  have htime' : e.clock + Call.total calls' ≤ maxCount := htotal ▸ htime
  have hready := ready_of_reachable hreach hdrift
  obtain ⟨habreast, _, hstreams⟩ := hready.calls_eq_ticks hawaited hprotocol hfits hgentle
  obtain ⟨habreast', _, hstreams'⟩ := hready.calls_eq_ticks hawaited hprotocol hfits' hgentle'
  rw [← htotal] at habreast' hstreams'
  have hsame : Abreast (e.processAll calls') (e.processAll calls) :=
    habreast'.symm.trans habreast
  refine ⟨?_, _, _, processAllBy_eq htime o, processAllBy_eq htime' o, hsame.toMatches.noteOf,
    hsame.clock⟩
  intro id hid s
  obtain ⟨xs, hxs, halike⟩ :=
    hstreams id (fun c hc => hid c (List.mem_append_left _ hc)) s
  obtain ⟨ys, hys, halike'⟩ :=
    hstreams' id (fun c hc => hid c (List.mem_append_right _ hc)) s
  refine ⟨xs, ys, (streamedBy?_eq htime o id s).trans hxs, (streamedBy?_eq htime' o id s).trans hys,
    ?_, halike.trans halike'.symm⟩
  rw [halike.length_eq, heard, List.length_map, List.length_range]

/-- Two voices with a glide time of five samples, and a note that bends while it glides. -/
def glidingNote : Engine :=
  (((((Engine.idle 2 48000.0 (EventQueue.empty 8) {} .plain).operate
    (.stage { voices := 2, glide := 0.0001 })).operate (.process 1 (Buffer.silent 2 1))).operate
    (.push (Event.noteOn 7 1 60.0 0.5 3))).operate (.push (Event.pitchBend 7 1 12000 4))).operate
    (.push (Event.noteOff 7 1 8))

/-- One block of eight frames. -/
def oneBlock : List Call :=
  [{ frames := 8, out := Buffer.silent 2 8 }]

/-- Eight frames, cut in two while the note glides. -/
def twoBlocks : List Call :=
  [{ frames := 5, out := Buffer.silent 2 8 }, { frames := 3, out := Buffer.silent 2 8 }]

theorem reachable_glidingNote : Reachable glidingNote :=
  .operate (.operate (.operate (.operate (.operate (reachableBy_idlePair _)
    trivial) trivial) trivial) trivial) trivial

/-- The bent and gliding pitch does not tell whether the block was cut. -/
theorem pitch_of_glidingNote :
    Reachable glidingNote
      ∧ glidingNote.GentleCalls oneBlock
      ∧ glidingNote.GentleCalls twoBlocks
      ∧ glidingNote.clock + Call.total oneBlock ≤ maxCount
      ∧ ∃ xs ys, glidingNote.streamedBy? .stops oneBlock 0 .pitch = some xs
          ∧ glidingNote.streamedBy? .stops twoBlocks 0 .pitch = some ys
          ∧ List.Forall₂ Binary32.SameNumber xs ys := by
  have hprotocol : glidingNote.settings.protocol = .conventional := by
    decide +kernel
  have hdrift : (glidingNote.settings.drift == 0.0) = true := by
    decide +kernel
  have hawaited : glidingNote.awaited? = none := by
    decide +kernel
  have hgentle : glidingNote.GentleCalls oneBlock := by
    decide +kernel
  have hgentle' : glidingNote.GentleCalls twoBlocks := by
    decide +kernel
  have hplaces : ∀ c ∈ oneBlock ++ twoBlocks, 0 < c.out.voices := by
    decide
  have hne : glidingNote.settings.protocol ≠ .expressive := by
    rw [hprotocol]
    decide
  have htime : glidingNote.clock + Call.total oneBlock ≤ maxCount := by
    decide +kernel
  have hfits : ∀ c ∈ oneBlock, c.Fits glidingNote.bank.count := by
    decide +kernel
  have hfits' : ∀ c ∈ twoBlocks, c.Fits glidingNote.bank.count := by
    decide +kernel
  obtain ⟨hstreams, _⟩ :=
    partition_independent reachable_glidingNote hne hdrift hawaited hfits hfits' rfl hgentle
      hgentle' htime .stops
  rw [hprotocol] at hstreams
  obtain ⟨xs, ys, hxs, hys, _, halike⟩ := hstreams 0 hplaces .pitch
  exact ⟨reachable_glidingNote, hgentle, hgentle', htime, xs, ys, hxs, hys, halike⟩

/-- One voice four frames before the end of time, and a note one frame later. -/
def latecomer : Engine :=
  [.stage { voices := 1 }, .process 0 (Buffer.silent 2 0), .setClock (maxCount - 3),
    .push (Event.noteOn 7 1 60.0 1.0 (maxCount - 2))].foldl
    Engine.operate (idle 2 48000.0 (EventQueue.empty 8) {} .plain)

/-- Eight frames, cut in two behind the note. -/
def cutBehindNote : List Call :=
  [{ frames := 2, out := Buffer.silent 2 8 }, { frames := 6, out := Buffer.silent 2 8 }]

/--
Beyond the greatest time it matters how frames are cut: either the program ends, or the
note starts only if the frames are cut behind it.
-/
theorem gate_of_latecomer :
    Reachable latecomer
      ∧ latecomer.settings.protocol = .conventional
      ∧ (latecomer.settings.drift == 0.0) = true
      ∧ latecomer.awaited? = none
      ∧ (∀ c ∈ oneBlock, c.Fits latecomer.bank.count)
      ∧ (∀ c ∈ cutBehindNote, c.Fits latecomer.bank.count)
      ∧ Call.total oneBlock = Call.total cutBehindNote
      ∧ latecomer.GentleCalls oneBlock
      ∧ latecomer.GentleCalls cutBehindNote
      ∧ latecomer.processAllBy .stops oneBlock = none
      ∧ latecomer.streamedBy? .wraps oneBlock 0 .gate
          = some [0.0, 0.0, 0.0, 0.0, 0.0, 0.0, 0.0, 0.0]
      ∧ latecomer.streamedBy? .wraps cutBehindNote 0 .gate
          = some [0.0, 1.0, 1.0, 1.0, 1.0, 1.0, 1.0, 1.0] := by
  have hreach : Reachable latecomer := Reachable.operateAll (reachableBy_idlePair _) _
  have hstops : latecomer.processAllBy .stops oneBlock = none :=
    Option.isNone_iff_eq_none.1 (by decide +kernel)
  exact ⟨hreach, by decide +kernel, by decide +kernel, by decide +kernel, by decide +kernel,
    by decide +kernel, rfl, by decide +kernel, by decide +kernel, hstops, by decide +kernel,
    by decide +kernel⟩

end Runs

end Engine
end Polyphony
