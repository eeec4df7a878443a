import Polyphony.Proofs.Engine.Buses
import Polyphony.Proofs.Engine.Causality

/-!
# A voice changes its channel

Where every note has a channel of its own, a voice follows the bend of the channel of
its note, and goes on to do so when the note has ended.  A new note takes the voice
together with its channel when it is performed, and that is before the first sample of
the block is rendered.  So the voice follows the new channel from there on, whenever in
the block the note begins; nothing else of its pitch changes before that.

**Results.**
* `answer_of_choose?`: what a new note asks of the voice that it gets.
* `sampleAt_pitch_take`: what it does to the ramps of the pitch before it begins.
* `pitch_handover`: the pitch of that voice in front of the note, with it and without it.
-/

namespace Polyphony
namespace Engine

section Notes

variable {g : Engine} {event : Event} {choice : Choice}

/-- A new note that is not refused is played by the voice that is chosen. -/
theorem answer_of_choose?
    (hkind : event.kind = .noteOn)
    (hunison : g.settings.unison = false)
    (hslot : g.held.freeSlot?.isSome = true)
    (hchoice : g.choose? event = some choice)
    (tn : Tenancy) :
    g.answer event choice.id tn = .start event ∨ g.answer event choice.id tn = .steal event true := by
  have hfull : g.held.freeSlot?.isNone = false := by
    rw [← Option.not_isSome, hslot]
    rfl
  have hanswer : g.answer event choice.id tn = g.noteOnAnswer event choice.id := by
    unfold answer
    rw [hkind]
  rw [hanswer]
  unfold noteOnAnswer
  rw [hfull, hunison, hchoice]
  cases choice with
  | free id => exact Or.inl (if_pos rfl)
  | stolen id => exact Or.inr (if_pos rfl)

/-- A new note does not silence. -/
theorem silences_of_noteOn
    (hkind : event.kind = .noteOn) :
    g.silences event = false := by
  cases hsilences : g.silences event with
  | false => rfl
  | true =>
      have hcontroller : event.kind = .controller := kind_of_obeys hsilences
      rw [hkind] at hcontroller
      cases hcontroller

/-- A new note does not move the buses. -/
theorem buses_of_noteOn
    (hkind : event.kind = .noteOn) :
    (g.perform event).buses = g.buses := by
  have hmain : g.mainAfter event = g.main := by
    unfold mainAfter
    rw [hkind]
    exact ite_self _
  have hbends : g.bendsAfter event = g.channelBends := by
    unfold bendsAfter bendsChannel
    simp [hkind]
  rw [buses_perform (silences_of_noteOn hkind), hmain, hbends]
  rfl

/--
The voice that gets a new note behind the first sample is on the channel of the note, and
only its pitch has one more change.
-/
theorem exists_voice_of_choose?
    (hkind : event.kind = .noteOn)
    (hunison : g.settings.unison = false)
    (hslot : g.held.freeSlot?.isSome = true)
    (hchoice : g.choose? event = some choice)
    (hlater : 0 < event.time)
    {v : Voice}
    (hv : g.bank.voices[choice.id]? = some v) :
    ∃ w, (g.perform event).bank.voices[choice.id]? = some w
      ∧ w.channel = event.channel
      ∧ w.pitch = v.pitch.schedule (g.temperament.pitch event.first) event.time
      ∧ w.pitchBend = v.pitchBend
      ∧ w.drift = v.drift := by
  have hcount : choice.id < g.bank.count :=
    Bank.id_lt_of_choose? hchoice
  have hvoice : (g.perform event).bank.voices[choice.id]?
      = some (v.take g.temperament (g.answer event choice.id v.toTenancy)) := by
    rw [voices_perform (silences_of_noteOn hkind), answered, Bank.getElem?_mapActiveIdx, hv,
      Option.map_some, if_pos hcount]
  refine ⟨_, hvoice, ?_⟩
  rcases answer_of_choose? hkind hunison hslot hchoice v.toTenancy with hstart | hsteal
  · rw [hstart]
    exact ⟨rfl, rfl, rfl, rfl⟩
  · have hattack : Voice.attackTime event = event.time :=
      Nat.max_eq_left hlater
    rw [hsteal]
    refine ⟨rfl, ?_, rfl, rfl⟩
    show v.pitch.schedule (g.temperament.pitch event.first) (Voice.attackTime event) = _
    rw [hattack]

end Notes

section Samples

variable {g f : Engine} {event : Event} {choice : Choice} {v w : Voice} {n : Nat} {i : Fin n}

/-- What the pitch of a voice is made of at a sample. -/
theorem pitchSample_congr
    (hsettings : f.settings = g.settings)
    (htuning : f.tuningShift = g.tuningShift)
    (hbuses : f.buses = g.buses)
    (hpitch : w.pitch.sampleAt i = v.pitch.sampleAt i)
    (hbend : w.pitchBend = v.pitchBend)
    (hdrift : w.drift = v.drift)
    (hown : (g.ownBend? w.channel).map (·.sampleAt i)
      = (g.ownBend? v.channel).map (·.sampleAt i)) :
    f.pitchSample w i = g.pitchSample v i := by
  have hmain : f.main = g.main := congrArg Buses.main hbuses
  have hbends : f.channelBends = g.channelBends := congrArg Buses.channelBends hbuses
  have hbent : f.bentSample w i = g.bentSample v i := by
    unfold bentSample
    rw [hsettings, hmain, hpitch, hbend]
    cases g.settings.protocol with
    | conventional => rfl
    | expressive =>
        have hbend? : f.ownBend? w.channel = g.ownBend? w.channel := by
          unfold ownBend?
          rw [hbends]
        rw [hbend?]
        cases hw : g.ownBend? w.channel with
        | none =>
            cases hv : g.ownBend? v.channel with
            | none => rfl
            | some bend => simp [hw, hv] at hown
        | some bend =>
            cases hv : g.ownBend? v.channel with
            | none => simp [hw, hv] at hown
            | some other =>
                have hsame : bend.sampleAt i = other.sampleAt i := by
                  simpa [hw, hv] using hown
                dsimp only
                rw [hsame]
    | continuousTouch => rfl
  unfold pitchSample driftedSample
  rw [htuning, hsettings, hbent, hdrift]

/-- In front of its note, the pitch of a voice is only changed by the channel of the note. -/
theorem streamSample_pitch_noteOn
    (hkind : event.kind = .noteOn)
    (hunison : g.settings.unison = false)
    (hslot : g.held.freeSlot?.isSome = true)
    (hchoice : g.choose? event = some choice)
    (hv : g.bank.voices[choice.id]? = some v)
    (hi : i.val < event.time)
    (hn : event.time < n)
    (hroom : v.pitch.pending.length < maxPending
      ∨ ∀ last ∈ v.pitch.pending.getLast?, i.val < last.offset)
    {channel : UInt8}
    (hown : (g.ownBend? event.channel).map (·.sampleAt i)
      = (g.ownBend? channel).map (·.sampleAt i)) :
    (g.perform event).streamSample i choice.id .pitch = g.pitchSample { v with channel } i := by
  have hbackground := background_perform g event
  have hcount : (g.perform event).bank.count = g.bank.count :=
    congrArg Background.count hbackground
  have hid : choice.id < (g.perform event).bank.count := by
    rw [hcount]
    exact Bank.id_lt_of_choose? hchoice
  obtain ⟨w, hw, hchannel, hpitch, hbend, hdrift⟩ :=
    exists_voice_of_choose? hkind hunison hslot hchoice (by omega) hv
  -- the new pitch is for a later sample
  have hspares : Ramp.Spares (i.val + 1) v.pitch.pending
      { value := g.temperament.pitch event.first, offset := event.time } :=
    ⟨hi, hroom.imp_left Or.inl⟩
  have hsample : w.pitch.sampleAt i = v.pitch.sampleAt i := by
    rw [hpitch]
    exact Ramp.sampleAt_congr (Ramp.upTo_schedule hspares) (Nat.lt_succ_self _) (by omega)
  rw [streamSample_of_voice hid hw]
  refine pitchSample_congr (congrArg Background.settings hbackground)
    (congrArg Background.tuningShift hbackground) (buses_of_noteOn hkind) hsample hbend hdrift ?_
  rw [hchannel]
  exact hown

end Samples

section Blocks

variable {e : Engine} {q q' : EventQueue} {early : List Event} {x : Event}

/--
A voice changes its channel for a whole block.  Where every voice has notes of its own,
let the last event of a block be a new note that begins behind the first sample, and let
the voice that it gets have room for its pitch.  In front of the note, the pitch of that
voice is the one that it would have if it had been on the channel of the new note all the
time.  Without the note it is on the channel that it was on, so both agree where the two
channels are bent alike.
-/
theorem pitch_handover
    (frames : Nat)
    (out : Buffer)
    (hunison : e.adoptAwaited.settings.unison = false)
    (halone : q.dueBefore (e.clock + blockLength frames out) = early)
    (hboth : q'.dueBefore (e.clock + blockLength frames out) = early ++ [x])
    (hkind : x.kind = .noteOn)
    (g : Engine)
    (hg : e.amid (blockLength frames out) early = g)
    (hslot : g.held.freeSlot?.isSome = true)
    {choice : Choice}
    (hchoice : g.choose? x = some choice)
    (hplace : choice.id < out.voices)
    {v : Voice}
    (hv : g.bank.voices[choice.id]? = some v)
    (i : Fin (blockLength frames out))
    (hi : i.val < x.time - e.clock)
    (hroom : v.pitch.pending.length < maxPending
      ∨ ∀ last ∈ v.pitch.pending.getLast?, i.val < last.offset) :
    ((e.withQueue q).process frames out).2.sample choice.id .pitch i = some (g.pitchSample v i)
      ∧ ((e.withQueue q').process frames out).2.sample choice.id .pitch i
        = some (g.pitchSample { v with channel := x.channel } i)
      ∧ ((g.ownBend? x.channel).map (·.sampleAt i) = (g.ownBend? v.channel).map (·.sampleAt i) →
          ((e.withQueue q').process frames out).2.sample choice.id .pitch i
            = ((e.withQueue q).process frames out).2.sample choice.id .pitch i) := by
  have hunison' : g.settings.unison = false := by
    rw [← hg, settings_amid]
    exact hunison
  have hdue : x.time < e.clock + blockLength frames out :=
    time_lt_of_due hboth (by simp)
  have hend : x.time - e.clock < blockLength frames out := by
    omega
  have hkind' : (localTo e.clock x).kind = .noteOn := hkind
  have hsample (channel : UInt8)
      (hown : (g.ownBend? x.channel).map (·.sampleAt i)
        = (g.ownBend? channel).map (·.sampleAt i)) :
      (g.perform (localTo e.clock x)).streamSample i choice.id .pitch
        = g.pitchSample { v with channel } i :=
    streamSample_pitch_noteOn hkind' hunison' hslot hchoice hv hi hend hroom hown
  rw [sample_withQueue hplace i .pitch halone, sample_withQueue hplace i .pitch hboth,
    amid_append, hg, streamSample_of_voice (Bank.id_lt_of_choose? hchoice) hv,
    List.map_singleton, List.foldl_cons, List.foldl_nil]
  exact ⟨rfl, congrArg some (hsample x.channel rfl),
    fun hown => congrArg some (hsample v.channel hown)⟩

/-- A voice whose note has ended on channel three, which is bent. -/
def fading : Engine :=
  [.stage { voices := 1, protocol := .expressive }, .push (Event.noteOn 3 3 60.0 1.0 0),
    .push (Event.pitchBend 3 3 12000 0), .push (Event.noteOff 3 3 1),
    .process 8 (Buffer.silent 1 8)].foldl operate (idle 2 48000.0 (EventQueue.empty 8) {} .plain)

/-- A note on channel four, in the middle of the block that comes next. -/
def newcomer : Event :=
  Event.noteOn 4 4 64.0 1.0 12

/--
The released voice keeps the bend of its channel as long as no other note takes it.  If
one does at the fifth sample of a block, the bend is gone at the third one already.
-/
theorem pitch_handover_fading :
    Reachable fading
      ∧ fading.adoptAwaited.settings.protocol = .expressive
      ∧ fading.adoptAwaited.settings.unison = false
      ∧ fading.clock = 8
      ∧ (queueOf []).dueBefore (8 + 8) = []
      ∧ (queueOf [newcomer]).dueBefore (8 + 8) = [newcomer]
      ∧ newcomer.time = 8 + 4
      ∧ (fading.amid 8 []).held.freeSlot?.isSome = true
      ∧ (fading.amid 8 []).choose? newcomer = some (.free 0)
      ∧ ∃ v, (fading.amid 8 []).bank.voices[0]? = some v
        ∧ v.channel = 3
        ∧ v.pitch.pending.length < maxPending
        ∧ ((fading.withQueue (queueOf [])).process 8 (Buffer.silent 1 8)).2.sample 0 .pitch 2
          = some ((fading.amid 8 []).pitchSample v (⟨2, by decide⟩ : Fin 8))
        ∧ ((fading.withQueue (queueOf [newcomer])).process 8
            (Buffer.silent 1 8)).2.sample 0 .pitch 2
          = some ((fading.amid 8 []).pitchSample { v with channel := newcomer.channel }
            (⟨2, by decide⟩ : Fin 8))
        ∧ ((fading.withQueue (queueOf [newcomer])).process 8
            (Buffer.silent 1 8)).2.sample 0 .pitch 2
          ≠ ((fading.withQueue (queueOf [])).process 8 (Buffer.silent 1 8)).2.sample 0 .pitch 2 := by
  have hreach : Reachable fading :=
    Reachable.operateAll (reachableBy_idlePair _) _
  have hunison : fading.adoptAwaited.settings.unison = false := by
    decide +kernel
  have hclock : fading.clock = 8 := by
    decide +kernel
  have halone : (queueOf []).dueBefore (8 + 8) = [] := by
    decide +kernel
  have hboth : (queueOf [newcomer]).dueBefore (8 + 8) = [newcomer] := by
    decide +kernel
  have hlater : newcomer.time = 8 + 4 := by
    decide
  have hslot : (fading.amid 8 []).held.freeSlot?.isSome = true := by
    decide +kernel
  have hchoice : (fading.amid 8 []).choose? newcomer = some (.free 0) := by
    decide +kernel
  have hlength : 0 < (fading.amid 8 []).bank.voices.length := by
    decide +kernel
  obtain ⟨v, hv⟩ : ∃ v, (fading.amid 8 []).bank.voices[0]? = some v :=
    ⟨_, List.getElem?_eq_getElem hlength⟩
  have hstate : (fading.amid 8 []).bank.voices[0]?.any (fun v =>
      decide (v.channel = 3 ∧ v.pitch.pending.length < maxPending)) = true := by
    decide +kernel
  simp only [hv, Option.any_some, decide_eq_true_eq] at hstate
  obtain ⟨hchannel, hroom⟩ := hstate
  obtain ⟨hwithout, hwith, _⟩ :=
    pitch_handover 8 (Buffer.silent 1 8) hunison (by rw [hclock]; exact halone)
      (by rw [hclock]; exact hboth) rfl (fading.amid 8 []) rfl hslot hchoice (by decide) hv
      ⟨2, by decide⟩ (by dsimp only; omega) (Or.inl hroom)
  exact ⟨hreach, by decide +kernel, hunison, hclock, halone, hboth, hlater, hslot, hchoice, v, hv,
    hchannel, hroom, hwithout, hwith, by decide +kernel⟩

end Blocks

end Engine
end Polyphony
