import Polyphony.Proofs.Engine.Buses
import Polyphony.Proofs.Engine.Replay
import Polyphony.Proofs.Engine.Setup

/-!
# Where the wheel has left the voices

Where all notes share one bend, every voice keeps a bend of its own.  A turn of the
wheel moves the bends of the voices that play then, and only if the block goes on
without silence: what is pending is dropped with it.  A voice that begins to play later
is not told, so that its bend is the one of the last turn that has reached it.

**Results.**
* `wheels_perform`: what an event does to the bends.
* `goal_turnedAll`: where the bends are headed after the events of a block.
* `headings_operate`: what an operation makes of that.
* `bend_of_run`: the bend of every voice after any operations on an engine that was
  built.
-/

namespace Polyphony

/-- A turn of the wheel that has been performed. -/
structure WheelTurn where
  /-- The bend that it asks for. -/
  bend : Float32
  /-- The number of voices that play. -/
  count : Nat
  /-- Whether silence follows in the same block. -/
  lost : Bool
deriving DecidableEq

namespace WheelTurn

/-- Whether the turn reaches the voice with a number. -/
def reaches (t : WheelTurn) (id : Nat) : Bool :=
  !t.lost && decide (id < t.count)

/-- The bend of a voice after some turns: the one of the last turn that reaches it. -/
def settle (id : Nat) (turns : List WheelTurn) (start : Float32) : Float32 :=
  turns.foldl (fun bend t => if t.reaches id then t.bend else bend) start

theorem settle_cons (id : Nat) (t : WheelTurn) (turns : List WheelTurn) (start : Float32) :
    settle id (t :: turns) start = settle id turns (if t.reaches id then t.bend else start) := by
  rfl

theorem settle_append (id : Nat) (first second : List WheelTurn) (start : Float32) :
    settle id (first ++ second) start = settle id second (settle id first start) := by
  exact List.foldl_append

/-- If the last turn reaches the voice, no other turn counts. -/
theorem settle_of_last
    {id : Nat} {turns : List WheelTurn} {last : WheelTurn}
    (hlast : turns.getLast? = some last)
    (hreaches : last.reaches id = true)
    (start : Float32) :
    settle id turns start = last.bend := by
  obtain ⟨init, rfl⟩ := List.getLast?_eq_some_iff.1 hlast
  rw [settle_append]
  exact if_pos hreaches

end WheelTurn

namespace Engine

section Events

/-- The turns of the wheel among the events of a block. -/
def wheelTurns (e : Engine) : List Event → List WheelTurn
  | [] => []
  | x :: xs =>
      if x.kind = .pitchBend then
        { bend := e.wheelBend x, count := e.bank.count, lost := xs.any e.silences }
          :: e.wheelTurns xs
      else e.wheelTurns xs

/-- What an event does to the bend of the voice with a number. -/
def turned (e : Engine) (x : Event) (id : Nat) (r : Ramp) : Ramp :=
  if e.silences x then r.dropPending
  else if x.kind = .pitchBend ∧ id < e.bank.count then r.schedule (e.wheelBend x) x.time
  else r

/-- What events do to it, one after the other. -/
def turnedAll (e : Engine) (xs : List Event) (id : Nat) (r : Ramp) : Ramp :=
  xs.foldl (fun r x => e.turned x id r) r

/-- The bends of the voices. -/
def wheels (e : Engine) : List Ramp :=
  e.bank.voices.map fun v => v.pitchBend

variable {e f : Engine} {x : Event}

/-- Of all answers only that to the wheel schedules anything for the bend of a voice. -/
theorem changes_pitchBend
    (hprotocol : e.settings.protocol = .conventional)
    (t : Temperament) (id : Nat) (tn : Tenancy) :
    (e.answer x id tn).changes t tn .pitchBend
      = if x.kind = .pitchBend then [Answer.changeAt x (e.wheelBend x)] else [] := by
  have hend : (e.endAnswer x).changes t tn .pitchBend = [] := by
    unfold endAnswer
    split <;> rfl
  cases hkind : x.kind with
  | noteOn =>
      simp only [answer, hkind]
      rcases e.noteOnAnswer_cases x id with h | h | h <;> rw [h] <;> rfl
  | noteOff =>
      simp only [answer, hkind]
      rcases e.noteOffAnswer_cases x tn with h | ⟨note, retrigger, h⟩ | h
      · rw [h]
        rfl
      · rw [h]
        rfl
      · rw [h, hend]
        rfl
  | noteUpdate =>
      simp only [answer, hkind]
      split <;> rfl
  | sustain =>
      simp only [answer, hkind, pedalAnswer]
      split
      · rfl
      · split <;> rfl
  | controller =>
      have hmod (slot : Option Nat) : (Answer.moveMod x slot).changes t tn .pitchBend = [] := by
        unfold Answer.moveMod
        rcases slot with _ | _ | _ | _ | _ <;> rfl
      simp only [answer, hkind, controllerAnswer, hprotocol]
      split
      · split <;> rfl
      · split
        · rfl
        · exact hmod _
  | pitchBend =>
      simp only [answer, hkind, bendAnswer, hprotocol]
      rfl
  | notePressure =>
      simp only [answer, hkind, pressNoteAnswer]
      split <;> rfl
  | channelPressure =>
      simp only [answer, hkind, pressChannelAnswer, hprotocol]
      rfl
  | null =>
      simp only [answer, hkind]
      rfl

/-- What an event does to the bends of all voices. -/
theorem wheels_perform
    (hprotocol : e.settings.protocol = .conventional)
    (x : Event) :
    (e.perform x).wheels = e.wheels.mapIdx (e.turned x) := by
  apply List.ext_getElem?
  intro id
  unfold wheels turned
  rw [List.getElem?_map, List.getElem?_mapIdx, List.getElem?_map]
  cases hsilent : e.silences x with
  | true =>
      rw [perform_of_silences hsilent]
      show ((e.bank.voices.map fun v => v.vacate.dropPending.mute)[id]?).map _ = _
      rw [List.getElem?_map]
      cases e.bank.voices[id]? <;> rfl
  | false =>
      rw [voices_perform hsilent, answered, Bank.getElem?_mapActiveIdx]
      cases e.bank.voices[id]? with
      | none => rfl
      | some v =>
          by_cases hid : id < e.bank.count
          · have htake : (v.take e.temperament (e.answer x id v.toTenancy)).pitchBend
                = if x.kind = .pitchBend then v.pitchBend.schedule (e.wheelBend x) x.time
                  else v.pitchBend := by
              rw [Answer.take_eq]
              show v.pitchBend.scheduleAll (Answer.changes _ _ _ .pitchBend) = _
              rw [changes_pitchBend hprotocol]
              split <;> rfl
            simp [hid, htake]
          · simp [hid]

/-- What the wheel does is a matter of settings and of the number of voices. -/
theorem turned_congr
    (hsettings : f.settings = e.settings)
    (hcount : f.bank.count = e.bank.count) :
    f.turned = e.turned := by
  unfold turned wheelBend
  simp only [silences_congr hsettings, hsettings, hcount]

/-- What the events of a block do to the bends of all voices. -/
theorem wheels_performAll
    (hprotocol : e.settings.protocol = .conventional)
    (xs : List Event) :
    (xs.foldl perform e).wheels = e.wheels.mapIdx (e.turnedAll xs) := by
  induction xs generalizing e with
  | nil =>
      apply List.ext_getElem?
      intro id
      rw [List.getElem?_mapIdx, List.foldl_nil]
      cases e.wheels[id]? <;> rfl
  | cons x xs ih =>
      have hbackground := background_perform e x
      have hsettings : (e.perform x).settings = e.settings :=
        congrArg Background.settings hbackground
      have hcount : (e.perform x).bank.count = e.bank.count :=
        congrArg Background.count hbackground
      have hrest := ih (e := e.perform x) (by rw [hsettings]; exact hprotocol)
      rw [List.foldl_cons, hrest, wheels_perform hprotocol, List.mapIdx_mapIdx]
      unfold turnedAll
      rw [turned_congr hsettings hcount]
      rfl

/-- No event moves a bend before its block is rendered. -/
theorem target_turnedAll (e : Engine) (xs : List Event) (id : Nat) (r : Ramp) :
    (e.turnedAll xs id r).target = r.target := by
  have hstep (x : Event) (r : Ramp) : (e.turned x id r).target = r.target := by
    unfold turned
    split
    · rfl
    · split <;> rfl
  induction xs generalizing r with
  | nil => rfl
  | cons x xs ih => exact (ih (e.turned x id r)).trans (hstep x r)

/-- After the events of a block, a bend is headed for the last turn that has reached it. -/
theorem goal_turnedAll (e : Engine) (xs : List Event) (id : Nat) (r : Ramp) :
    (e.turnedAll xs id r).goal
      = WheelTurn.settle id (e.wheelTurns xs) (if xs.any e.silences then r.target else r.goal) := by
  induction xs generalizing r with
  | nil => rfl
  | cons x xs ih =>
      have hrest : (e.turnedAll (x :: xs) id r).goal
          = WheelTurn.settle id (e.wheelTurns xs)
              (if xs.any e.silences then r.target else (e.turned x id r).goal) := by
        have htarget := target_turnedAll e [x] id r
        rw [← htarget]
        exact ih (e.turned x id r)
      rw [hrest]
      cases hsilent : e.silences x with
      | true =>
          -- an event that silences is no turn, and nothing is pending behind it
          have hkind : x.kind = .controller := kind_of_obeys hsilent
          have hgoal : r.dropPending.goal = r.target := Ramp.goal_of_pending_nil rfl
          simp [wheelTurns, turned, hsilent, hkind, hgoal]
      | false =>
          by_cases hkind : x.kind = .pitchBend
          · have hturns : e.wheelTurns (x :: xs)
                = { bend := e.wheelBend x, count := e.bank.count, lost := xs.any e.silences }
                  :: e.wheelTurns xs :=
              if_pos hkind
            rw [hturns, WheelTurn.settle_cons]
            congr 1
            cases hlost : xs.any e.silences with
            | true => simp [WheelTurn.reaches, hlost]
            | false =>
                by_cases hid : id < e.bank.count
                · simp [turned, WheelTurn.reaches, hsilent, hkind, hid, Ramp.goal_schedule]
                · simp [turned, WheelTurn.reaches, hlost, hsilent, hkind, hid]
          · simp [wheelTurns, turned, hsilent, hkind]

end Events

section Operations

/-- Where the bends of the voices are headed between two blocks. -/
def headings (e : Engine) : List Float32 :=
  e.wheels.map Ramp.target

/-- The turns of the wheel that an operation performs. -/
def turnsIn (e : Engine) : Operation → List WheelTurn
  | .process frames out =>
      if blockLength frames out = 0 then []
      else e.adoptAwaited.wheelTurns (e.queue.dueBefore (e.clock + blockLength frames out))
  | _ => []

/-- The turns of the wheel that operations perform, one after the other. -/
def turns : Engine → List Operation → List WheelTurn
  | _, [] => []
  | e, op :: ops => e.turnsIn op ++ turns (e.operate op) ops

/--
What a host may do if all notes are to share one bend and its buffers have room for all
voices.
-/
def SharesBend (e : Engine) (op : Operation) : Prop :=
  (e.operate op).settings.protocol = .conventional ∧ e.HasPlaces op

/-- The same for operations one after the other. -/
def SharesBends : Engine → List Operation → Prop
  | _, [] => True
  | e, op :: ops => e.SharesBend op ∧ SharesBends (e.operate op) ops

variable {e : Engine}

/-- What is done to all voices may leave alone where their bends are headed. -/
theorem headings_of_map
    {f : Engine} {change : Voice → Voice}
    (hvoices : f.bank.voices = e.bank.voices.map change)
    (h : ∀ v, (change v).pitchBend.target = v.pitchBend.target) :
    f.headings = e.headings := by
  unfold headings wheels
  rw [hvoices]
  simp only [List.map_map]
  exact List.map_congr_left fun v _ => h v

theorem headings_silence (e : Engine) :
    e.silence.headings = e.headings :=
  headings_of_map rfl fun _ => rfl

theorem headings_distributeGlides (e : Engine) :
    e.distributeGlides.headings = e.headings :=
  headings_of_map rfl fun _ => rfl

theorem headings_rerated (e : Engine) (rate : Float32) :
    (e.rerated rate).headings = e.headings :=
  headings_of_map rfl fun _ => rfl

theorem headings_adoptAwaited (e : Engine) :
    e.adoptAwaited.headings = e.headings := by
  unfold adoptAwaited
  split
  · have hresettled (next : Settings) :
        (e.taken.resettled next).distributeGlides.headings = e.headings :=
      headings_distributeGlides _
    rw [adopt_eq]
    split
    · rw [headings_silence, hresettled]
    · exact hresettled _
  · rfl

/-- When a block has begun, the bends are as they were. -/
theorem wheels_opened (e : Engine) (n : Nat) :
    (e.opened n).wheels = e.wheels := by
  rw [opened_eq]
  refine map_mapIdx_of_eq (fun id v => ?_) e.bank.voices
  split
  · unfold openVoice Voice.grow
    split
    · split <;> rfl
    · split <;> rfl
  · rfl

/-- The events of a block, performed on the bends as they were before it. -/
theorem wheels_amid
    (hprotocol : e.adoptAwaited.settings.protocol = .conventional)
    (n : Nat) (events : List Event) :
    (e.amid n events).wheels
      = e.adoptAwaited.wheels.mapIdx
          (e.adoptAwaited.turnedAll (events.map (localTo e.clock))) := by
  have hsettings : (e.adoptAwaited.opened n).settings = e.adoptAwaited.settings := by
    rw [opened_eq]
  have hcount : (e.adoptAwaited.opened n).bank.count = e.adoptAwaited.bank.count := by
    rw [opened_eq]
    rfl
  unfold amid
  rw [wheels_performAll (by rw [hsettings]; exact hprotocol), wheels_opened]
  unfold turnedAll
  rw [turned_congr hsettings hcount]

/-- The time of an event makes no difference to where the wheel is turned. -/
theorem wheelTurns_localTo (e : Engine) (start : Nat) (xs : List Event) :
    e.wheelTurns (xs.map (localTo start)) = e.wheelTurns xs := by
  induction xs with
  | nil => rfl
  | cons x xs ih =>
      have hlost : (xs.map (localTo start)).any e.silences = xs.any e.silences := by
        rw [List.any_map]
        rfl
      simp only [List.map_cons, wheelTurns, ih, hlost]
      rfl

/-- Turns of the wheel only reach the voices that play. -/
theorem settle_wheelTurns_of_le
    {id : Nat}
    (hid : e.bank.count ≤ id)
    (xs : List Event)
    (start : Float32) :
    WheelTurn.settle id (e.wheelTurns xs) start = start := by
  induction xs with
  | nil => rfl
  | cons x xs ih =>
      have hbeyond : ¬ id < e.bank.count := by
        omega
      unfold wheelTurns
      split
      · simpa [WheelTurn.settle, WheelTurn.reaches, hbeyond] using ih
      · exact ih

/-- Within a block, a bend is headed for the last turn that has reached it. -/
theorem exists_goal_amid
    (h : Reachable e)
    (hprotocol : e.adoptAwaited.settings.protocol = .conventional)
    (n : Nat) (events : List Event)
    {id : Nat} {v : Voice}
    (hv : e.adoptAwaited.bank.voices[id]? = some v) :
    ∃ u, (e.amid n events).bank.voices[id]? = some u
      ∧ u.pitchBend.target = v.pitchBend.target
      ∧ u.pitchBend.goal
        = WheelTurn.settle id (e.adoptAwaited.wheelTurns events) v.pitchBend.target := by
  have hwheel : (e.amid n events).wheels[id]?
      = some (e.adoptAwaited.turnedAll (events.map (localTo e.clock)) id v.pitchBend) := by
    rw [wheels_amid hprotocol, List.getElem?_mapIdx]
    unfold wheels
    rw [List.getElem?_map, hv]
    rfl
  unfold wheels at hwheel
  rw [List.getElem?_map] at hwheel
  obtain ⟨u, hu, hturned⟩ := Option.map_eq_some_iff.1 hwheel
  have hnil : v.pitchBend.pending = [] :=
    (atRest_of_reachable h).adoptAwaited.voices v (List.mem_of_getElem? hv) .pitchBend
  refine ⟨u, hu, ?_, ?_⟩
  · rw [hturned, target_turnedAll]
  · rw [hturned, goal_turnedAll, wheelTurns_localTo, Ramp.goal_of_pending_nil hnil, ite_self]

/-- A block takes every bend to the last turn that has reached it. -/
theorem exists_heading_process
    (h : Reachable e)
    {frames : Nat} {out : Buffer}
    (hn : 0 < blockLength frames out)
    (hprotocol : e.adoptAwaited.settings.protocol = .conventional)
    (hplaces : e.capacity ≤ out.voices)
    {id : Nat} {v : Voice}
    (hv : e.adoptAwaited.bank.voices[id]? = some v) :
    ∃ w, (e.process frames out).1.bank.voices[id]? = some w
      ∧ w.pitchBend.target
        = WheelTurn.settle id (e.turnsIn (.process frames out)) v.pitchBend.target := by
  have hturns : e.turnsIn (.process frames out)
      = e.adoptAwaited.wheelTurns (e.queue.dueBefore (e.clock + blockLength frames out)) :=
    if_neg (Nat.ne_of_gt hn)
  have hrenders : e.adoptAwaited.settings.renders .pitchBend = true := by
    simp [Settings.renders, hprotocol]
  have hfits : e.adoptAwaited.bank.count ≤ out.voices := by
    have hle := count_performed_le h (blockLength frames out)
    rw [count_performed] at hle
    omega
  obtain ⟨u, hu, htarget, hgoal⟩ := exists_goal_amid h hprotocol (blockLength frames out)
    (e.queue.dueBefore (e.clock + blockLength frames out)) hv
  obtain ⟨w, hw, htargets⟩ := target_process hn rfl hu
  refine ⟨w, hw, ?_⟩
  have hbend : w.pitchBend.target
      = if id < min e.adoptAwaited.bank.count out.voices
            ∧ e.adoptAwaited.settings.renders .pitchBend = true then u.pitchBend.goal
        else u.pitchBend.target :=
    htargets .pitchBend
  rw [hbend, hturns]
  by_cases hid : id < e.adoptAwaited.bank.count
  · rw [if_pos ⟨by omega, hrenders⟩, hgoal]
  · rw [if_neg (by omega), htarget, settle_wheelTurns_of_le (by omega)]

/-- So it is for all voices at once. -/
theorem headings_process
    (h : Reachable e)
    {frames : Nat} {out : Buffer}
    (hn : 0 < blockLength frames out)
    (hprotocol : e.adoptAwaited.settings.protocol = .conventional)
    (hplaces : e.capacity ≤ out.voices) :
    (e.process frames out).1.headings
      = e.headings.mapIdx fun id => WheelTurn.settle id (e.turnsIn (.process frames out)) := by
  rw [← headings_adoptAwaited e]
  apply List.ext_getElem?
  intro id
  unfold headings wheels
  rw [List.getElem?_mapIdx]
  simp only [List.getElem?_map]
  cases hv : e.adoptAwaited.bank.voices[id]? with
  | some v =>
      obtain ⟨w, hw, htarget⟩ := exists_heading_process h hn hprotocol hplaces hv
      rw [hw]
      exact congrArg some htarget
  | none =>
      have hcapacity : (e.process frames out).1.capacity = e.adoptAwaited.capacity := by
        rw [capacity_process, capacity_adoptAwaited]
      have hnone : (e.process frames out).1.bank.voices[id]? = none := by
        rw [List.getElem?_eq_none_iff] at hv ⊢
        exact Nat.le_trans (Nat.le_of_eq hcapacity) hv
      rw [hnone]
      rfl

/-- Wherever the bends are headed, an operation takes them to the last turns that reach them. -/
theorem headings_operate
    (h : Reachable e)
    {op : Operation}
    (hshares : e.SharesBend op) :
    (e.operate op).headings = e.headings.mapIdx fun id => WheelTurn.settle id (e.turnsIn op) := by
  have hstays {f : Engine} (hf : f.headings = e.headings) :
      f.headings = e.headings.mapIdx fun id => WheelTurn.settle id [] := by
    rw [hf]
    apply List.ext_getElem?
    intro id
    rw [List.getElem?_mapIdx]
    cases e.headings[id]? <;> rfl
  cases op with
  | attachMailbox => exact hstays rfl
  | post s =>
      refine hstays ?_
      rw [operate_post]
      rfl
  | stage s => exact hstays rfl
  | push event =>
      refine hstays ?_
      obtain ⟨_, -, hpush⟩ := exists_operate_push e event
      rw [hpush]
      rfl
  | setSampleRate rate =>
      refine hstays ?_
      rw [operate_setSampleRate]
      cases isSampleRate rate with
      | true => exact (headings_distributeGlides _).trans (headings_rerated e rate)
      | false => rfl
  | setTemperament t => exact hstays rfl
  | setClock time => exact hstays rfl
  | silence => exact hstays (headings_silence e)
  | reset => exact hstays (headings_silence e)
  | process frames out =>
      obtain ⟨hshared, hplaces⟩ := hshares
      have hsettings : (e.process frames out).1.settings = e.adoptAwaited.settings :=
        congrArg Setup.settings (setup_process e frames out)
      have hprotocol : e.adoptAwaited.settings.protocol = .conventional := by
        rw [← hsettings]
        exact hshared
      rcases Nat.eq_zero_or_pos (blockLength frames out) with hzero | hpos
      · have hprocess : (e.process frames out).1 = e.adoptAwaited := by
          simp only [process, hzero, if_true]
        have hturns : e.turnsIn (.process frames out) = [] :=
          if_pos hzero
        rw [hturns]
        refine hstays ?_
        show (e.process frames out).1.headings = _
        rw [hprocess, headings_adoptAwaited]
      · exact headings_process h hpos hprotocol hplaces

/-- What some operations do, others go on with. -/
theorem headings_operateAll
    (h : Reachable e)
    {ops : List Operation}
    (hshares : e.SharesBends ops) :
    (ops.foldl operate e).headings
      = e.headings.mapIdx fun id => WheelTurn.settle id (e.turns ops) := by
  induction ops generalizing e with
  | nil =>
      apply List.ext_getElem?
      intro id
      rw [List.getElem?_mapIdx, List.foldl_nil]
      cases e.headings[id]? <;> rfl
  | cons op ops ih =>
      have hturns (id : Nat) :
          WheelTurn.settle id (e.turns (op :: ops))
            = WheelTurn.settle id ((e.operate op).turns ops)
                ∘ WheelTurn.settle id (e.turnsIn op) :=
        funext (WheelTurn.settle_append id _ _)
      rw [List.foldl_cons, ih (.operate h trivial) hshares.2, headings_operate h hshares.1,
        List.mapIdx_mapIdx]
      simp only [hturns]

/-- At first no voice is bent. -/
theorem headings_idle
    (capacity : Nat) (rate : Float32) (queue : EventQueue) (t : Temperament) (library : Library) :
    (idle capacity rate queue t library).headings = List.replicate capacity 0.0 := by
  unfold idle
  rw [headings_distributeGlides]
  unfold headings wheels Bank.idle
  simp only [List.map_replicate]
  rfl

/--
Let a host build an engine and do anything with it as long as all notes share one bend
and its buffers have room for all voices.  Then the bend of every voice is headed for the
bend of the last turn of the wheel that has reached the voice, or for zero if there was
none.  That is the last turn of all if it has reached the voice: if the voice played then,
and no silence followed in the same block.
-/
theorem bend_of_run
    {capacity queueLength : Nat} {rate : Float32} {t : Temperament} {library : Library}
    (hbuild : Engine.build capacity rate (EventQueue.empty queueLength) t library = .ok e)
    (ops : List Operation)
    (hshares : e.SharesBends ops)
    {id : Nat} {v : Voice}
    (hv : (ops.foldl operate e).bank.voices[id]? = some v) :
    v.pitchBend.target = WheelTurn.settle id (e.turns ops) 0.0
      ∧ ∀ last, (e.turns ops).getLast? = some last → last.reaches id = true →
          v.pitchBend.target = last.bend := by
  have hsettled : v.pitchBend.target = WheelTurn.settle id (e.turns ops) 0.0 := by
    have hheading : (ops.foldl operate e).headings[id]? = some v.pitchBend.target := by
      unfold headings wheels
      rw [List.getElem?_map, List.getElem?_map, hv]
      rfl
    rw [headings_operateAll (.build hbuild) hshares, List.getElem?_mapIdx] at hheading
    obtain ⟨start, hstart, hsettle⟩ := Option.map_eq_some_iff.1 hheading
    rw [eq_idle_of_build hbuild, headings_idle] at hstart
    rw [← hsettle, List.eq_of_mem_replicate (List.mem_of_getElem? hstart)]
  refine ⟨hsettled, fun last hlast hreaches => ?_⟩
  rw [hsettled]
  exact WheelTurn.settle_of_last hlast hreaches 0.0

/-- Two voices that do not play yet. -/
def restingPair : Engine :=
  idle 2 48000.0 (EventQueue.empty 8) {} .plain

/-- The wheel goes up for both voices, and back while the second one does not play. -/
def pausedVoice : List Operation :=
  [.stage { voices := 2 }, .push (Event.pitchBend 0 1 16383 0), .process 8 (Buffer.silent 2 8),
    .stage { voices := 1 }, .push (Event.pitchBend 0 1 8192 8), .process 8 (Buffer.silent 2 8),
    .stage { voices := 2 }, .process 8 (Buffer.silent 2 8)]

/-- The turn that both voices are told of. -/
def upwards : WheelTurn :=
  { bend := Tuning.wheelOffset 16383.0 7.0, count := 2, lost := false }

/-- The turn that only the first one is told of. -/
def backwards : WheelTurn :=
  { bend := 0.0, count := 1, lost := false }

/-- When the second voice plays again, it is still bent, although the wheel is at rest. -/
theorem bend_of_pausedVoice :
    Engine.build 2 48000.0 (EventQueue.empty 8) {} .plain = .ok restingPair
      ∧ restingPair.SharesBends pausedVoice
      ∧ (pausedVoice.foldl operate restingPair).bank.count = 2
      ∧ restingPair.turns pausedVoice = [upwards, backwards]
      ∧ upwards.bend ≠ backwards.bend
      ∧ ∃ v w : Voice,
        (pausedVoice.foldl operate restingPair).bank.voices[0]? = some v
          ∧ (pausedVoice.foldl operate restingPair).bank.voices[1]? = some w
          ∧ v.pitchBend.target = backwards.bend
          ∧ w.pitchBend.target = upwards.bend := by
  have hbuild : Engine.build 2 48000.0 (EventQueue.empty 8) {} .plain = .ok restingPair := by
    rfl
  have hshares : restingPair.SharesBends pausedVoice := by
    refine ⟨⟨?_, trivial⟩, ⟨?_, trivial⟩, ⟨?_, ?_⟩, ⟨?_, trivial⟩, ⟨?_, trivial⟩, ⟨?_, ?_⟩,
      ⟨?_, trivial⟩, ⟨?_, ?_⟩, trivial⟩
    case refine_4 | refine_8 | refine_11 =>
      show Engine.capacity _ ≤ Buffer.voices _
      decide +kernel
    all_goals decide +kernel
  have hturns : restingPair.turns pausedVoice = [upwards, backwards] := by
    decide +kernel
  have hlength : (pausedVoice.foldl operate restingPair).bank.voices.length = 2 := by
    decide +kernel
  have hvoice (id : Nat) (hid : id < 2) :
      ∃ v, (pausedVoice.foldl operate restingPair).bank.voices[id]? = some v :=
    ⟨_, List.getElem?_eq_getElem (by rw [hlength]; exact hid)⟩
  obtain ⟨v, hv⟩ := hvoice 0 (by decide)
  obtain ⟨w, hw⟩ := hvoice 1 (by decide)
  have htold := (bend_of_run hbuild pausedVoice hshares hv).2 backwards (by rw [hturns]; rfl) rfl
  have hmissed := (bend_of_run hbuild pausedVoice hshares hw).1
  rw [hturns] at hmissed
  exact ⟨hbuild, hshares, by decide +kernel, hturns, by decide +kernel, v, w, hv, hw, htold,
    hmissed⟩

end Operations

end Engine
end Polyphony
