import Polyphony.CommandLine.Run
import Polyphony.Proofs.Session.Outcome
import Polyphony.Proofs.Session.Posting

/-!
# When the demonstration can be rendered

The notes of the demonstration begin ten frames apart, however long it is, and all
else happens at eighths of its length.  So when it is short, the wheel moves before
the last note has begun, and the script is not in the order of its times.

**Length.**  The last note begins at frame 20 and the wheel moves at a quarter of the
length.  The two are out of order if both are before the end and the quarter comes
first, that is, from 21 to 79 frames.

**Results.**
* `chronological_near_script_iff`: for which lengths the events before the end are in
  order.
* `renders_demonstration`: the demonstration is rendered for those lengths, and for
  the others the first move of the wheel is refused.
-/

namespace Polyphony

namespace Demo

section Times

variable {settings : Settings} {total : Nat}

theorem time_noteStart (protocol : Protocol) (note : Float32) (i : Nat) :
    (noteStart protocol note i).time = 10 * i := by
  cases protocol <;> rfl

/-- The whole-tone bend of the script. -/
def bendUp (settings : Settings) (total : Nat) : Event :=
  Event.pitchBend 0 1 (Tuning.wheelPosition 2.0 settings.bendRange) (total / 8 * 2)

/-- The script is the beginnings of its three notes, the bend, and what comes later. -/
theorem script_eq (settings : Settings) (total : Nat) :
    ∃ later,
      script settings total
          = noteStart settings.protocol 60.0 0 :: noteStart settings.protocol 64.0 1
            :: noteStart settings.protocol 67.0 2 :: bendUp settings total :: later
        ∧ later.map Event.time
          = [total / 8 * 3, total / 8 * 4, total / 8 * 5, total / 8 * 6, total / 8 * 7] :=
  ⟨_, rfl, rfl⟩

/-- The times of the script. -/
theorem times_script (settings : Settings) (total : Nat) :
    (script settings total).map Event.time
      = [0, 10, 20, total / 8 * 2, total / 8 * 3, total / 8 * 4, total / 8 * 5, total / 8 * 6,
          total / 8 * 7] := by
  obtain ⟨later, hscript, hlater⟩ := script_eq settings total
  rw [hscript, List.map_cons, List.map_cons, List.map_cons, List.map_cons, hlater, time_noteStart,
    time_noteStart, time_noteStart]
  rfl

theorem length_script (settings : Settings) (total : Nat) :
    (script settings total).length = 9 := by
  rw [← List.length_map (f := Event.time), times_script]
  rfl

/-- If the wheel does not move before the last note begins, the whole script is in order. -/
theorem chronological_script (h : 80 ≤ total) :
    Chronological (script settings total) := by
  have hquarter : 20 ≤ total / 8 * 2 := by omega
  have htimes : ((script settings total).map Event.time).Pairwise (· ≤ ·) := by
    rw [times_script, ← List.isChain_iff_pairwise]
    simp only [List.isChain_cons_cons, List.isChain_singleton, and_true]
    omega
  exact List.pairwise_map.1 htimes

/-- If the last note does not begin before the end, at most two notes are left of the script. -/
theorem chronological_near_script (h : total ≤ 20) :
    Chronological (Rendering.near total (script settings total)) := by
  have htimes :
      (Rendering.near total (script settings total)).map Event.time
        = [0, 10].takeWhile fun time => decide (time < total) := by
    have hlast : ¬ 20 < total := by omega
    rw [Rendering.near, ← Function.comp_def (fun time => decide (time < total)) Event.time,
      ← List.takeWhile_map, times_script]
    simp only [List.takeWhile_cons, hlast]
    simp
  have hsorted : ([0, 10].takeWhile fun time => decide (time < total)).Pairwise (· ≤ ·) :=
    List.Pairwise.sublist (List.takeWhile_sublist _) (by decide)
  exact List.pairwise_map.1 (htimes ▸ hsorted)

/-- If the last note begins before the end, but after the wheel moves, the wheel is out of order. -/
theorem near_script_of_short
    (settings : Settings)
    (hlast : 20 < total)
    (hshort : total < 80) :
    ∃ front last back,
      Rendering.near total (script settings total) = front ++ last :: bendUp settings total :: back
        ∧ Chronological (front ++ [last])
        ∧ (bendUp settings total).time < last.time := by
  obtain ⟨later, hscript, -⟩ := script_eq settings total
  have hbend : (bendUp settings total).time < 20 := by
    have hquarter : total / 8 * 2 < 20 := by omega
    exact hquarter
  refine ⟨[noteStart settings.protocol 60.0 0, noteStart settings.protocol 64.0 1],
    noteStart settings.protocol 67.0 2, Rendering.near total later, ?_, ?_, ?_⟩
  · have hfirst : 0 < total := by omega
    have hsecond : 10 < total := by omega
    have hearly : (bendUp settings total).time < total := by omega
    rw [hscript]
    simp [Rendering.near, time_noteStart, hfirst, hsecond, hlast, hearly]
  · simp [Chronological, time_noteStart]
  · rw [time_noteStart]
    exact hbend

/-- The events before the end are in order unless the length is from 21 to 79 frames. -/
theorem chronological_near_script_iff :
    Chronological (Rendering.near total (script settings total)) ↔ total ≤ 20 ∨ 80 ≤ total := by
  constructor
  · intro hsorted
    by_contra hlength
    obtain ⟨front, last, back, hnear, -, hlt⟩ :=
      near_script_of_short settings (Nat.lt_of_not_le fun h => hlength (.inl h))
        (Nat.lt_of_not_le fun h => hlength (.inr h))
    rw [hnear] at hsorted
    have hle := List.rel_of_pairwise_cons (List.pairwise_append.1 hsorted).2.1 List.mem_cons_self
    omega
  · rintro (hle | hle)
    · exact chronological_near_script hle
    · exact (chronological_script hle).sublist (Rendering.near_sublist _ _)

end Times

end Demo

namespace Session

section Playing

variable {s : Session}

/-- Settings that are accepted change neither the queue of the engine nor its clock. -/
theorem queue_clock_of_configure
    {next : Settings} {after : Session}
    (h : s.configure next = .ok () after) :
    after.engine.queue = s.engine.queue ∧ after.engine.clock = s.engine.clock := by
  obtain ⟨mailbox, rfl⟩ := eq_of_configure h
  exact ⟨rfl, rfl⟩

/-- When a session has begun, its queue is the one that it was given, and its clock is at zero. -/
theorem queue_clock_of_start
    {capacity : Nat} {rate : Float32} {queue : EventQueue} {library : Library}
    (h : start capacity rate queue library = .ok s) :
    s.engine.queue = queue ∧ s.engine.clock = 0 := by
  obtain ⟨engine, hbuild, rfl⟩ := exists_build_of_start h
  rw [Engine.eq_idle_of_build hbuild]
  exact ⟨rfl, rfl⟩

/-- The demonstration finds an empty queue with room for all of its events. -/
theorem ready_demonstration
    {library : Library} {s₀ : Session} {settings : Settings}
    (hstart : start CommandLine.engineVoices CommandLine.sampleRate (.empty defaultQueueCapacity)
      library = .ok s₀)
    (hconfigure : s₀.configure settings = .ok () s)
    (total block : Nat) :
    s.engine.clock = 0
      ∧ (s.beginRendering (Demo.script settings total) (renderedBlock block)).Ready s.engine.clock
          (renderedBlock block) total := by
  obtain ⟨hqueue, hclock⟩ := queue_clock_of_configure hconfigure
  obtain ⟨hqueue₀, hclock₀⟩ := queue_clock_of_start hstart
  rw [hqueue₀] at hqueue
  rw [hclock₀] at hclock
  refine ⟨hclock, ready_beginRendering (congrArg EventQueue.waiting hqueue) ?_ fun k => ?_⟩
  · rw [hqueue]
    exact Nat.zero_le _
  · have hcount := List.countP_le_length (p := (Rendering.FallsInto (renderedBlock block) total k ·))
      (l := Demo.script settings total)
    rw [Demo.length_script] at hcount
    rw [hqueue]
    exact hcount.trans (by decide)

/--
In a session that has just begun, and whose settings have been accepted, the
demonstration over `total` frames is rendered to its end if it has at most 20 or at
least 80 frames.  Otherwise the events before its end are not in order, and the bend
of the wheel, which comes before the last note has begun, is handed back.
-/
theorem renders_demonstration
    {library : Library} {s₀ : Session} {settings : Settings}
    (hstart : start CommandLine.engineVoices CommandLine.sampleRate (.empty defaultQueueCapacity)
      library = .ok s₀)
    (hconfigure : s₀.configure settings = .ok () s)
    (total : Nat) :
    (Chronological (Rendering.near total (Demo.script settings total)) ↔ total ≤ 20 ∨ 80 ≤ total)
    ∧ (total ≤ 20 ∨ 80 ≤ total →
      ∃ r, s.renderScript (Demo.script settings total) total CommandLine.blockFrames = .ok r
        ∧ r.session.engine.clock = total
        ∧ ∀ plane ∈ r.recording.planes, plane.size = total)
    ∧ (20 < total → total < 80 →
      ∃ i, s.renderScript (Demo.script settings total) total CommandLine.blockFrames = .error i
        ∧ i.refusal = .outOfOrder (Event.pitchBend 0 1
            (Tuning.wheelPosition 2.0 settings.bendRange) (total / 8 * 2))) := by
  obtain ⟨hclock, hready⟩ :=
    ready_demonstration hstart hconfigure total CommandLine.blockFrames
  obtain ⟨hpos, hmax⟩ := bounds_renderedBlock CommandLine.blockFrames
  have hin := Rendering.inStep_beginRendering s (Demo.script settings total)
    (renderedBlock CommandLine.blockFrames)
  refine ⟨Demo.chronological_near_script_iff, fun hlength => ?_, fun hlast hshort => ?_⟩
  · obtain ⟨r, hrun, -, -⟩ := hready.runAll hin hmax hpos (Nat.zero_add total)
      (Demo.chronological_near_script_iff.2 hlength)
    obtain ⟨hstep, htotal⟩ := inStep_of_runAll hrun
    refine ⟨r.finish, ?_, ?_, fun plane hplane => (hstep.sizes plane hplane).trans htotal⟩
    · rw [renderScript_eq, hrun]
      rfl
    · rw [Rendering.finish, hstep.clock, htotal, hclock, Nat.zero_add]
  · obtain ⟨front, last, back, hnear, hfront, hlt⟩ := Demo.near_script_of_short settings hlast hshort
    obtain ⟨i, hrun, hrefusal⟩ :=
      hready.runAll_error hin hmax hpos (Nat.zero_add total) hnear hfront hlt
    refine ⟨i, ?_, ?_⟩
    · rw [renderScript_eq, hrun]
      rfl
    · rw [hrefusal, hclock, Rendering.delayed, Nat.zero_add]
      rfl

/-- Over 48 frames the wheel moves at frame 12, before the last note; 96 frames are rendered. -/
theorem renders_short_demonstration :
    ∃ s₀ s,
      start CommandLine.engineVoices CommandLine.sampleRate (.empty defaultQueueCapacity) .plain
          = .ok s₀
      ∧ s₀.configure { voices := 4, glide := 0.005 } = .ok () s
      ∧ ¬ Chronological
          (Rendering.near 48 (Demo.script { voices := 4, glide := 0.005 } 48))
      ∧ (∃ i, s.renderScript (Demo.script { voices := 4, glide := 0.005 } 48) 48 64 = .error i
          ∧ i.refusal = .outOfOrder (Event.pitchBend 0 1 10532 12))
      ∧ ∃ r, s.renderScript (Demo.script { voices := 4, glide := 0.005 } 96) 96 64 = .ok r
          ∧ r.session.engine.clock = 96 := by
  obtain ⟨s₀, hstart⟩ : ∃ s₀,
      start CommandLine.engineVoices CommandLine.sampleRate (.empty defaultQueueCapacity) .plain
        = .ok s₀ :=
    ⟨_, rfl⟩
  obtain ⟨s, hconfigure⟩ : ∃ s, s₀.configure { voices := 4, glide := 0.005 } = .ok () s := by
    have hsound : ({ voices := 4, glide := 0.005 } : Settings).fault? = none := by
      decide +kernel
    have hanswer := (Ledger.kept_start hstart).configure_eq { voices := 4, glide := 0.005 }
    rw [hsound] at hanswer
    exact ⟨_, hanswer⟩
  obtain ⟨horder, -, hrefused⟩ := renders_demonstration hstart hconfigure 48
  obtain ⟨-, hrendered, -⟩ := renders_demonstration hstart hconfigure 96
  obtain ⟨i, hi, hrefusal⟩ := hrefused (by decide) (by decide)
  obtain ⟨r, hr, hclock, -⟩ := hrendered (by decide)
  refine ⟨s₀, s, hstart, hconfigure, fun hsorted => ?_, ⟨i, hi, ?_⟩, r, hr, hclock⟩
  · have hlength := horder.1 hsorted
    omega
  · have hposition : Tuning.wheelPosition 2.0 7.0 = 10532 := by
      decide +kernel
    rw [hrefusal, hposition]

end Playing

end Session
end Polyphony
