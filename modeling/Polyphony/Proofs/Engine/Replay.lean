import Polyphony.Proofs.Engine.Writing
import Polyphony.Proofs.Ramp.Jumping

/-!
# The same block with other events

What happens in a block depends on the queue only by the events that are due in
it.  So a block can be rendered with other events: an engine is given another
queue, everything else stays, and what the two blocks send out is compared.

**Results.**
* `perform_withQueue`: no event looks at the queue.
* `performed_withQueue`: an engine with another queue performs the events that are
  due there on the same opened block.
* `sample_withQueue`: the samples that such a block sends out.
* `target_process`, `target_withQueue`: where the ramps are headed after a block.
-/

namespace Polyphony
namespace Engine

section Queues

/-- The engine with another queue. -/
def withQueue (e : Engine) (q : EventQueue) : Engine :=
  { e with queue := q }

variable (e : Engine) (q : EventQueue) (event : Event)

theorem startNote_withQueue :
    (e.withQueue q).startNote event = (e.startNote event).withQueue q := by
  have hchoose : (e.withQueue q).choose? event = e.choose? event := rfl
  have hheld : (e.withQueue q).held = e.held := rfl
  unfold startNote
  rw [hchoose, hheld]
  split
  · rfl
  · dsimp only
    split
    · rfl
    · rename_i choice _
      cases choice <;> rfl

theorem displace_withQueue :
    (e.withQueue q).displace = e.displace.withQueue q := by
  have hsounding : (e.withQueue q).soundingEvent? = e.soundingEvent? := rfl
  unfold displace
  rw [hsounding]
  split <;> rfl

theorem startUnison_withQueue :
    (e.withQueue q).startUnison event = (e.startUnison event).withQueue q := by
  have hbank : (e.withQueue q).bank = e.bank := rfl
  have hheld : (e.withQueue q).held = e.held := rfl
  unfold startUnison
  rw [hbank, hheld]
  split
  · rfl
  · split
    · rfl
    · rename_i slot _
      have hdisplaced := displace_withQueue { e with held := e.held.put slot event } q
      exact congrArg (fun k : Engine => k.mapActive fun v => v.start event e.temperament) hdisplaced

theorem endUnison_withQueue :
    (e.withQueue q).endUnison event = (e.endUnison event).withQueue q := by
  have hheld : (e.withQueue q).held = e.held := rfl
  have hdisplaced : (e.withQueue q).displaced = e.displaced := rfl
  have hsounding :
      ({ e.withQueue q with held := e.held.forget event.source } : Engine).isSounding event.source
        = ({ e with held := e.held.forget event.source } : Engine).isSounding event.source := rfl
  unfold endUnison
  dsimp only
  rw [hheld, hsounding, hdisplaced]
  split
  · split <;> rfl
  · rfl

theorem moveController_withQueue :
    (e.withQueue q).moveController event = (e.moveController event).withQueue q := by
  have hsettings : (e.withQueue q).settings = e.settings := rfl
  unfold moveController obeyMode
  rw [hsettings]
  split
  · split
    · split
      · rfl
      · split <;> rfl
    · split <;> rfl
  · split
    · split
      · split
        · rfl
        · split <;> rfl
      · rfl
    · rfl
  · rfl

theorem bendPitch_withQueue :
    (e.withQueue q).bendPitch event = (e.bendPitch event).withQueue q := by
  have hsettings : (e.withQueue q).settings = e.settings := rfl
  unfold bendPitch bendChannel
  rw [hsettings]
  dsimp only
  split
  · rfl
  · split
    · rfl
    · split <;> rfl
  · rfl

theorem pressNote_withQueue :
    (e.withQueue q).pressNote event = (e.pressNote event).withQueue q := by
  have hsettings : (e.withQueue q).settings = e.settings := rfl
  unfold pressNote
  rw [hsettings]
  split <;> rfl

theorem pressChannel_withQueue :
    (e.withQueue q).pressChannel event = (e.pressChannel event).withQueue q := by
  have hsettings : (e.withQueue q).settings = e.settings := rfl
  unfold pressChannel
  rw [hsettings]
  split
  · rfl
  · split <;> rfl
  · rfl

/-- No event looks at the queue. -/
theorem perform_withQueue :
    (e.withQueue q).perform event = (e.perform event).withQueue q := by
  have hsettings : (e.withQueue q).settings = e.settings := rfl
  unfold perform
  rw [hsettings]
  cases event.kind with
  | noteOn =>
      dsimp only
      split
      · exact startUnison_withQueue e q event
      · exact startNote_withQueue e q event
  | noteOff =>
      dsimp only
      split
      · exact endUnison_withQueue e q event
      · rfl
  | noteUpdate => rfl
  | sustain =>
      unfold movePedal
      dsimp only
      split <;> rfl
  | controller => exact moveController_withQueue e q event
  | pitchBend => exact bendPitch_withQueue e q event
  | notePressure => exact pressNote_withQueue e q event
  | channelPressure => exact pressChannel_withQueue e q event
  | null => rfl

theorem performAll_withQueue (events : List Event) :
    events.foldl perform (e.withQueue q) = (events.foldl perform e).withQueue q := by
  induction events generalizing e with
  | nil => rfl
  | cons event events ih =>
      rw [List.foldl_cons, List.foldl_cons, perform_withQueue]
      exact ih (e.perform event)

/-- Neither do new settings. -/
theorem adoptAwaited_withQueue :
    (e.withQueue q).adoptAwaited = e.adoptAwaited.withQueue q := by
  have hadopt (next : Settings) :
      (e.withQueue q).taken.adopt next = (e.taken.adopt next).withQueue q := by
    have hchanges : changesNotes (e.withQueue q).taken.settings
        ((e.withQueue q).taken.admitted next)
          = changesNotes e.taken.settings (e.taken.admitted next) := rfl
    rw [adopt_eq, adopt_eq, hchanges]
    split <;> rfl
  have hawaited : (e.withQueue q).awaited? = e.awaited? := rfl
  unfold adoptAwaited
  rw [hawaited]
  split
  · exact hadopt _
  · rfl

end Queues

section Blocks

/-- The engine within its next block of `n` frames, with some events performed. -/
def amid (e : Engine) (n : Nat) (events : List Event) : Engine :=
  (events.map (localTo e.clock)).foldl perform (e.adoptAwaited.opened n)

theorem amid_append (e : Engine) (n : Nat) (early late : List Event) :
    e.amid n (early ++ late) = (late.map (localTo e.clock)).foldl perform (e.amid n early) := by
  unfold amid
  rw [List.map_append, List.foldl_append]

/-- What the events of a block never change was so when it began. -/
theorem background_amid (e : Engine) (n : Nat) (events : List Event) :
    (e.amid n events).background = (e.adoptAwaited.opened n).background :=
  background_performAll _ _

theorem settings_amid (e : Engine) (n : Nat) (events : List Event) :
    (e.amid n events).settings = e.adoptAwaited.settings := by
  have hopened : (e.adoptAwaited.opened n).settings = e.adoptAwaited.settings := by
    rw [opened_eq]
  exact (congrArg Background.settings (background_amid e n events)).trans hopened

/-- What silences depends on the settings only. -/
theorem silences_congr
    {e f : Engine}
    (h : f.settings = e.settings)
    (event : Event) :
    f.silences event = e.silences event := by
  unfold silences obeys
  rw [h]

theorem silences_amid (e : Engine) (n : Nat) (events : List Event) (event : Event) :
    (e.amid n events).silences event = e.adoptAwaited.silences event :=
  silences_congr (settings_amid e n events) event

theorem tuningShift_amid (e : Engine) (n : Nat) (events : List Event) :
    (e.amid n events).tuningShift = e.adoptAwaited.tuningShift := by
  have hopened : (e.adoptAwaited.opened n).tuningShift = e.adoptAwaited.tuningShift := by
    rw [opened_eq]
  exact (congrArg Background.tuningShift (background_amid e n events)).trans hopened

theorem count_amid (e : Engine) (n : Nat) (events : List Event) :
    (e.amid n events).bank.count = e.adoptAwaited.bank.count := by
  have hopened : (e.adoptAwaited.opened n).bank.count = e.adoptAwaited.bank.count := by
    rw [opened_eq]
    rfl
  exact (congrArg Background.count (background_amid e n events)).trans hopened

theorem opened_withQueue (e : Engine) (q : EventQueue) (n : Nat) :
    (e.withQueue q).opened n = (e.opened n).withQueue (q.dropBefore (e.clock + n)) := by
  rw [opened_eq, opened_eq]
  rfl

/-- Nor does it matter for the engine within the block. -/
theorem amid_withQueue (e : Engine) (q : EventQueue) (n : Nat) (events : List Event) :
    (e.withQueue q).amid n events
      = (e.amid n events).withQueue (q.dropBefore (e.clock + n)) := by
  have hclock : e.adoptAwaited.clock = e.clock := clock_adoptAwaited e
  unfold amid
  rw [adoptAwaited_withQueue, opened_withQueue, performAll_withQueue, hclock]
  rfl

/-- With another queue, the events that are due there are performed on the same block. -/
theorem performed_withQueue (e : Engine) (q : EventQueue) (n : Nat) :
    (e.withQueue q).adoptAwaited.performed n
      = (e.amid n (q.dueBefore (e.clock + n))).withQueue (q.dropBefore (e.clock + n)) := by
  have hperformed (k : Engine) :
      k.adoptAwaited.performed n = k.amid n (k.queue.dueBefore (k.clock + n)) := by
    have hupcoming : k.adoptAwaited.upcoming n
        = (k.queue.dueBefore (k.clock + n)).map (localTo k.clock) := by
      have hlocal : k.adoptAwaited.localEvent = localTo k.adoptAwaited.clock := rfl
      rw [upcoming_eq, hlocal, queue_adoptAwaited, clock_adoptAwaited]
      rfl
    exact congrArg (fun events => events.foldl perform (k.adoptAwaited.opened n)) hupcoming
  rw [hperformed, amid_withQueue]
  rfl

/-- The events that are due have times before the end of the block. -/
theorem time_lt_of_due
    {q : EventQueue} {time : Nat} {events : List Event}
    (h : q.dueBefore time = events)
    {x : Event}
    (hx : x ∈ events) :
    x.time < time := by
  rw [← h] at hx
  simpa using List.mem_takeWhile_imp hx

/-- The sample of a stream of the voice with a number; without such a voice there is silence. -/
def streamSample (e : Engine) {n : Nat} (i : Fin n) (id : Nat) (s : Stream) : Float32 :=
  match e.bank.active[id]? with
  | some v => e.composed v i id s
  | none => 0.0

variable {e : Engine} {frames : Nat} {out : Buffer} {q : EventQueue}

theorem streamSample_of_voice
    {n id : Nat} {v : Voice}
    (hid : id < e.bank.count)
    (hv : e.bank.voices[id]? = some v)
    (i : Fin n) (s : Stream) :
    e.streamSample i id s = e.composed v i id s := by
  unfold streamSample Bank.active
  rw [List.getElem?_take, if_pos hid, hv]

/-- Every sample of a block is one of the engine whose events have been performed. -/
theorem sample_process
    {id : Nat}
    (hid : id < out.voices)
    (i : Fin (blockLength frames out))
    (s : Stream) :
    (e.process frames out).2.sample id s i
      = some ((e.adoptAwaited.performed (blockLength frames out)).streamSample i id s) := by
  have hn : 0 < blockLength frames out := Nat.zero_lt_of_lt i.isLt
  have hle : blockLength frames out ≤ out.frames := Nat.min_le_right _ _
  have hsize := size_signals_le_frames (e.adoptAwaited.performed (blockLength frames out)) frames out
  rw [process_snd hn, Buffer.sample_putVoices s hid (Nat.lt_of_lt_of_le i.isLt hle) hsize]
  generalize e.adoptAwaited.performed (blockLength frames out) = performed
  unfold Buffer.written streamSample Bank.active
  rw [getElem?_renderVoices_fst, List.getElem?_take]
  by_cases hcount : id < performed.bank.count
  · rw [if_pos (by omega), if_pos hcount]
    cases performed.bank.voices[id]? with
    | none => rfl
    | some v =>
        have hsample := performed.getElem?_renderVoice id v i s
        obtain ⟨hlt, _⟩ := Array.getElem?_eq_some_iff.1 hsample
        exact (if_pos hlt).trans hsample
  · rw [if_neg (by omega), if_neg hcount]

/-- The samples of a block depend on the queue by the events that are due. -/
theorem sample_withQueue
    {id : Nat}
    (hid : id < out.voices)
    (i : Fin (blockLength frames out))
    (s : Stream)
    {events : List Event}
    (hdue : q.dueBefore (e.clock + blockLength frames out) = events) :
    ((e.withQueue q).process frames out).2.sample id s i
      = some ((e.amid (blockLength frames out) events).streamSample i id s) := by
  rw [sample_process hid, performed_withQueue, hdue]
  rfl

/-- The block of an engine performs the events that are due in its own queue. -/
theorem performed_eq_amid (e : Engine) (n : Nat) :
    e.adoptAwaited.performed n
      = (e.amid n (e.queue.dueBefore (e.clock + n))).withQueue
          (e.queue.dropBefore (e.clock + n)) :=
  performed_withQueue e e.queue n

/--
After a block, a rendered ramp is headed for its goal; any other ramp has lost what
was pending, and its target stays.
-/
theorem target_process
    (hn : 0 < blockLength frames out)
    {events : List Event}
    (hdue : e.queue.dueBefore (e.clock + blockLength frames out) = events)
    {id : Nat} {v : Voice}
    (hv : (e.amid (blockLength frames out) events).bank.voices[id]? = some v) :
    ∃ w, (e.process frames out).1.bank.voices[id]? = some w
      ∧ ∀ role, (w.toControls.get role).target =
          if id < min e.adoptAwaited.bank.count out.voices
              ∧ e.adoptAwaited.settings.renders role = true then
            (v.toControls.get role).goal
          else (v.toControls.get role).target := by
  have hperformed := performed_eq_amid e (blockLength frames out)
  rw [hdue] at hperformed
  have hcount : (e.adoptAwaited.performed (blockLength frames out)).bank.count
      = e.adoptAwaited.bank.count :=
    count_performed _ _
  have hsettings : (e.adoptAwaited.performed (blockLength frames out)).settings
      = e.adoptAwaited.settings := by
    rw [hperformed]
    exact settings_amid e _ events
  have hvoice : (e.adoptAwaited.performed (blockLength frames out)).bank.voices[id]? = some v := by
    rw [hperformed]
    exact hv
  simp only [process, if_neg (Nat.ne_of_gt hn)]
  rw [renderBlock_fst, renderVoices_snd, hcount]
  generalize e.adoptAwaited.performed (blockLength frames out) = performed at hsettings hvoice
  show ∃ w, (List.map Voice.dropPending (performed.bank.voices.mapIdx _))[id]? = some w ∧ _
  rw [List.getElem?_map, List.getElem?_mapIdx, hvoice]
  refine ⟨_, rfl, fun role => ?_⟩
  have hdropped (u : Voice) :
      (u.dropPending.toControls.get role).target = (u.toControls.get role).target := by
    have hget : u.dropPending.toControls.get role = (u.toControls.get role).dropPending :=
      Controls.get_map Ramp.dropPending u.toControls role
    rw [hget]
    rfl
  rw [hdropped]
  dsimp only
  by_cases hid : id < min e.adoptAwaited.bank.count out.voices
  · have hget := BlockContext.get_renderVoice (performed.blockContext (blockLength frames out)) id v
      role hn
    have hrenders : (performed.blockContext (blockLength frames out)).settings.renders role
        = e.adoptAwaited.settings.renders role :=
      congrArg (fun s : Settings => s.renders role) hsettings
    rw [if_pos hid, hget, hrenders]
    cases e.adoptAwaited.settings.renders role with
    | true =>
        simp only [hid, and_self, if_true]
        exact Ramp.target_rendered _ hn
    | false => simp
  · rw [if_neg hid, if_neg fun h => hid h.1]

/-- The same after a block with the events of another queue. -/
theorem target_withQueue
    (hn : 0 < blockLength frames out)
    {events : List Event}
    (hdue : q.dueBefore (e.clock + blockLength frames out) = events)
    {id : Nat} {v : Voice}
    (hv : (e.amid (blockLength frames out) events).bank.voices[id]? = some v) :
    ∃ w, ((e.withQueue q).process frames out).1.bank.voices[id]? = some w
      ∧ ∀ role, (w.toControls.get role).target =
          if id < min e.adoptAwaited.bank.count out.voices
              ∧ e.adoptAwaited.settings.renders role = true then
            (v.toControls.get role).goal
          else (v.toControls.get role).target := by
  have hv' : ((e.withQueue q).amid (blockLength frames out) events).bank.voices[id]? = some v := by
    rw [amid_withQueue]
    exact hv
  have hprocess := target_process (e := e.withQueue q) hn hdue hv'
  rw [adoptAwaited_withQueue] at hprocess
  exact hprocess

end Blocks

section Trials

/-- An engine that is to play one voice. -/
def soloist : Engine :=
  (idle 2 48000.0 (EventQueue.empty 8) {} .plain).operate (.stage { voices := 1 })

/-- A queue in which events wait. -/
def queueOf (events : List Event) : EventQueue :=
  { EventQueue.empty 8 with waiting := events }

/-- A key that goes down, and a wheel that moves. -/
def pressedAndBent : List Event :=
  [Event.noteOn 3 1 60.0 1.0 0, Event.pitchBend 3 1 12000 1]

end Trials

end Engine
end Polyphony
