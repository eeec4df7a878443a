import Polyphony.Proofs.Engine.Agreement

/-!
# The isolation of expressive notes

A host does the same to two engines, but one of them, or each, gets extra
gestures.  What a voice plays that is never owned by the source of an extra
gesture, and is never on the channel of an extra wheel, stays the same to the
bit.

**Runs.**  The two runs are compared without the pushes that are refused and
without those of extra gestures.  What is left is the same, so that either run
comes, behind extra gestures, to the next operation of the other one.

**Results.**
* `Agree.next`, `Agree.step`: the next operation of both runs keeps them in agreement.
* `isolated`: the voice sends out the same in both runs.
-/

namespace Polyphony

namespace Operation

/-- Whether an operation pushes one of the events. -/
def pushes (extras : List Event) : Operation → Bool
  | .push event => event ∈ extras
  | _ => false

/-- The operations but for the pushes of extra events. -/
def core (extras : List Event) (ops : List Operation) : List Operation :=
  ops.filter fun op => !op.pushes extras

end Operation

namespace Engine

section Runs

variable {extras : List Event} {id : Nat} {e f : Engine}

/-- The buffer that an operation writes, if it processes a block. -/
def output? (e : Engine) : Operation → Option Buffer
  | .process frames out => some (e.process frames out).2
  | _ => none

/-- The buffers that a run writes, one after the other. -/
def outputs : Engine → List Operation → List Buffer
  | _, [] => []
  | e, op :: ops => (e.output? op).toList ++ outputs (e.operate op) ops

/-- Whether an operation is not a push that is refused. -/
def heeds (e : Engine) : Operation → Bool
  | .push event => (e.push event).isOk
  | _ => true

/-- The operations of a run without the pushes that are refused. -/
def heeded : Engine → List Operation → List Operation
  | _, [] => []
  | e, op :: ops =>
      if e.heeds op then op :: heeded (e.operate op) ops else heeded (e.operate op) ops

/-- Whether no push of a run is refused. -/
def HeedsAll : Engine → List Operation → Prop
  | _, [] => True
  | e, op :: ops => e.heeds op = true ∧ HeedsAll (e.operate op) ops

instance decidableHeedsAll : (e : Engine) → (ops : List Operation) → Decidable (e.HeedsAll ops)
  | _, [] => isTrue trivial
  | e, op :: ops =>
      have := decidableHeedsAll (e.operate op) ops
      inferInstanceAs (Decidable (_ ∧ _))

/-- A run of which no push is refused is heeded as a whole. -/
theorem HeedsAll.heeded_eq
    {ops : List Operation}
    (h : e.HeedsAll ops) :
    e.heeded ops = ops := by
  induction ops generalizing e with
  | nil => rfl
  | cons op ops ih =>
      rw [heeded, if_pos h.1, ih h.2]

/-- A condition on all engines in which the events of a run are performed. -/
def During (P : Engine → Prop) : Engine → List Operation → Prop
  | _, [] => True
  | e, op :: ops => e.DuringOperation P op ∧ During P (e.operate op) ops

instance decidableDuring (P : Engine → Prop) [DecidablePred P] :
    (e : Engine) → (ops : List Operation) → Decidable (e.During P ops)
  | _, [] => isTrue trivial
  | e, op :: ops =>
      have := decidableDuring P (e.operate op) ops
      inferInstanceAs (Decidable (_ ∧ _))

/-- Pushing an extra event is not seen. -/
theorem agree_push
    {event : Event}
    (hmem : event ∈ extras) :
    Agree extras id e (e.operate (.push event)) := by
  obtain ⟨queue, hqueue, hpush⟩ := exists_operate_push e event
  rw [hpush]
  rcases hqueue with hqueue | rfl
  · refine ⟨rfl, rfl, ?_, fun _ _ => rfl⟩
    show queue.waiting.filter _ = _
    rw [EventQueue.waiting_of_push hqueue, List.filter_append]
    simp [hmem]
  · exact Agree.refl extras id e

/-- A push that is accepted puts the event behind those that wait. -/
theorem operate_push
    {event : Event}
    (h : e.heeds (.push event) = true) :
    ∃ queue, queue.waiting = e.queue.waiting ++ [event]
      ∧ e.operate (.push event) = { e with queue } := by
  cases hpush : e.push event with
  | error refusal left =>
      simp only [heeds, hpush] at h
      cases h
  | ok _ after =>
      obtain ⟨queue, haccept, rfl⟩ := eq_of_push hpush
      refine ⟨queue, EventQueue.waiting_of_push haccept, ?_⟩
      simp only [operate, hpush, Attempt.state]

/-- Pushing a common event keeps agreement if both engines accept it. -/
theorem Agree.push
    {event : Event}
    (h : Agree extras id e f)
    (haccepted : e.heeds (.push event) = true)
    (haccepted' : f.heeds (.push event) = true) :
    Agree extras id (e.operate (.push event)) (f.operate (.push event)) := by
  obtain ⟨q, hq, he⟩ := operate_push haccepted
  obtain ⟨r, hr, hf⟩ := operate_push haccepted'
  rw [he, hf]
  refine ⟨h.bare, h.voice, ?_, h.bends⟩
  show r.waiting.filter _ = q.waiting.filter _
  rw [hq, hr, List.filter_append, List.filter_append, h.waiting]

/-- A push that is refused changes nothing. -/
theorem operate_of_not_heeds
    {op : Operation}
    (h : e.heeds op = false) :
    e.operate op = e := by
  cases op with
  | push event =>
      cases hpush : e.push event with
      | error refusal left => exact operate_push_of_error hpush
      | ok _ after =>
          simp only [heeds, hpush] at h
          cases h
  | _ => cases h

/-- What is not seen at the beginning of a run: refused pushes and extra events. -/
theorem core_heeded_cons (e : Engine) (op : Operation) (ops : List Operation) :
    Operation.core extras (e.heeded (op :: ops))
      = if e.heeds op = true ∧ op.pushes extras = false then
          op :: Operation.core extras ((e.operate op).heeded ops)
        else Operation.core extras ((e.operate op).heeded ops) := by
  unfold Operation.core
  rw [heeded]
  cases e.heeds op with
  | false => simp
  | true => cases hpushes : op.pushes extras <;> simp [hpushes]

/-- Refused pushes and extra events leave an engine in agreement with what it was. -/
theorem agree_unseen
    {op : Operation}
    (h : ¬ (e.heeds op = true ∧ op.pushes extras = false)) :
    Agree extras id e (e.operate op) := by
  cases hheeds : e.heeds op with
  | false =>
      rw [operate_of_not_heeds hheeds]
      exact Agree.refl extras id e
  | true =>
      have hpushes : op.pushes extras = true := by
        simpa [hheeds] using h
      cases op with
      | push event => exact agree_push (by simpa [Operation.pushes] using hpushes)
      | _ => cases hpushes

theorem output?_unseen
    {op : Operation}
    (h : ¬ (e.heeds op = true ∧ op.pushes extras = false)) :
    e.output? op = none := by
  cases op with
  | process frames out => exact absurd ⟨rfl, rfl⟩ h
  | _ => rfl

/-- A run of which nothing is seen writes nothing. -/
theorem outputs_of_core_eq_nil
    (ops : List Operation) :
    ∀ {e : Engine}, Operation.core extras (e.heeded ops) = [] → e.outputs ops = [] := by
  induction ops with
  | nil => exact fun {e} _ => rfl
  | cons op ops ih =>
      intro e hnil
      rw [core_heeded_cons] at hnil
      split at hnil
      case isTrue => cases hnil
      case isFalse hunseen =>
        rw [outputs, output?_unseen hunseen]
        exact ih hnil

/-- Behind what is not seen of a run comes its next operation, in an engine that agrees. -/
theorem Agree.next
    {op : Operation} {rest : List Operation}
    (ops : List Operation) :
    ∀ {f : Engine}, Agree extras id e f → Reachable f →
      Operation.core extras (f.heeded ops) = op :: rest →
      ∃ g after, Agree extras id e g ∧ Reachable g ∧ g.heeds op = true
        ∧ Operation.core extras ((g.operate op).heeded after) = rest
        ∧ f.outputs ops = g.outputs (op :: after) := by
  induction ops with
  | nil =>
      intro f _ _ hcons
      cases hcons
  | cons first ops ih =>
      intro f h hreach hcons
      rw [core_heeded_cons] at hcons
      split at hcons
      case isTrue hseen =>
        obtain ⟨rfl, hrest⟩ := List.cons.inj hcons
        exact ⟨f, ops, h, hreach, hseen.1, hrest, rfl⟩
      case isFalse hunseen =>
        have hstep : Agree extras id f (f.operate first) := agree_unseen hunseen
        obtain ⟨g, after, hagree, hreach', hheeds, hrest, houtputs⟩ :=
          ih (h.trans hstep) (.operate hreach trivial) hcons
        refine ⟨g, after, hagree, hreach', hheeds, hrest, ?_⟩
        rw [Engine.outputs, output?_unseen hunseen]
        exact houtputs

/-- One operation on both engines keeps agreement, and the voice sends out the same. -/
theorem Agree.step
    (h : Agree extras id e f)
    (hextras : ∀ x ∈ extras, x.isGesture = true)
    (hrest : e.AtRest ∧ f.AtRest)
    {op : Operation}
    (hheeds : e.heeds op = true ∧ f.heeds op = true)
    (hduring : e.DuringOperation (Shields extras id) op) :
    Agree extras id (e.operate op) (f.operate op)
      ∧ ∀ s, (f.output? op).toList.map (fun out => out.stream? id s)
        = (e.output? op).toList.map fun out => out.stream? id s := by
  cases op with
  | push event => exact ⟨h.push hheeds.1 hheeds.2, fun _ => rfl⟩
  | process frames out =>
      obtain ⟨hagree, hstreams⟩ := h.process hextras hrest hduring
      refine ⟨hagree, fun s => ?_⟩
      exact congrArg (fun stream => [stream]) (hstreams s)
  | _ =>
      refine ⟨h.operate ?_ ?_, fun _ => rfl⟩
      · intro event
        exact Operation.noConfusion
      · intro frames out
        exact Operation.noConfusion

/-- Runs that differ by extra gestures, from two engines that agree. -/
theorem Agree.outputs
    (hextras : ∀ x ∈ extras, x.isGesture = true)
    (ops : List Operation) :
    ∀ {others : List Operation} {e f : Engine},
      Agree extras id e f → Reachable e → Reachable f →
      Operation.core extras (f.heeded others) = Operation.core extras (e.heeded ops) →
      e.During (Shields extras id) ops →
      ∀ s, (f.outputs others).map (fun out => out.stream? id s)
        = (e.outputs ops).map fun out => out.stream? id s := by
  induction ops with
  | nil =>
      intro others e f _ _ _ hsame _ s
      have hnone : f.outputs others = [] := outputs_of_core_eq_nil others hsame
      rw [hnone]
      rfl
  | cons op ops ih =>
      intro others e f h hreach hreach' hsame hduring s
      obtain ⟨hblock, hduring⟩ := hduring
      rw [core_heeded_cons] at hsame
      split at hsame
      case isTrue hseen =>
        -- the other run comes to the same operation
        obtain ⟨g, after, hagree, hreachg, hheeds, hrest, houtputs⟩ :=
          h.next others hreach' hsame
        have hatRest := And.intro (atRest_of_reachable hreach) (atRest_of_reachable hreachg)
        obtain ⟨hstep, hstreams⟩ := hagree.step hextras hatRest ⟨hseen.1, hheeds⟩ hblock
        rw [houtputs, Engine.outputs, Engine.outputs, List.map_append, List.map_append,
          hstreams s]
        congr 1
        exact ih hstep (.operate hreach trivial) (.operate hreachg trivial) hrest hduring s
      case isFalse hunseen =>
        have hstep : Agree extras id e (e.operate op) := agree_unseen hunseen
        rw [Engine.outputs, output?_unseen hunseen]
        exact ih (hstep.symm.trans h) (.operate hreach trivial) hreach' hsame hduring s

/--
Runs of one engine that differ by extra gestures sound the same for a voice that
is never owned by the source of one and never on the channel of an extra wheel.
-/
theorem isolated
    (h : Reachable e)
    (hextras : ∀ x ∈ extras, x.isGesture = true)
    {ops others : List Operation}
    (hsame : Operation.core extras (e.heeded others) = Operation.core extras (e.heeded ops))
    (hduring : e.During (Shields extras id) ops)
    (s : Stream) :
    (e.outputs others).map (fun out => out.stream? id s)
      = (e.outputs ops).map fun out => out.stream? id s :=
  (Agree.refl extras id e).outputs hextras ops h h hsame hduring s

/-- Two voices, to which expressive settings are sent. -/
def expressivePair : Engine :=
  (idle 2 48000.0 (EventQueue.empty 8) {} .plain).operate
    (.stage { voices := 2, protocol := .expressive })

/-- Gestures of the finger that plays the second note. -/
def secondFinger : List Event :=
  [Event.pitchBend 4 3 12000 1, Event.channelPressure 4 3 0.5 1, Event.controller 4 3 74 0.25 1]

/-- Two notes on channels of their own, and a short block. -/
def duet (gestures : List Event) : List Operation :=
  [.push (Event.noteOn 3 2 60.0 1.0 0), .push (Event.noteOn 4 3 64.0 1.0 0)]
    ++ gestures.map Operation.push ++ [.process 4 (Buffer.silent 2 4)]

/-- The first note does not hear the second finger. -/
theorem isolated_duet :
    Reachable expressivePair
      ∧ (∀ x ∈ secondFinger, x.isGesture = true)
      ∧ Operation.core secondFinger (expressivePair.heeded (duet []))
          = Operation.core secondFinger (expressivePair.heeded (duet secondFinger))
      ∧ expressivePair.During (Shields secondFinger 0) (duet secondFinger)
      ∧ ∀ s, (expressivePair.outputs (duet [])).map (fun out => out.stream? 0 s)
          = (expressivePair.outputs (duet secondFinger)).map fun out => out.stream? 0 s := by
  have hreach : Reachable expressivePair := .operate (reachableBy_idlePair _) trivial
  have hgestures : ∀ x ∈ secondFinger, x.isGesture = true := by
    decide
  have hsame :
      Operation.core secondFinger (expressivePair.heeded (duet []))
        = Operation.core secondFinger (expressivePair.heeded (duet secondFinger)) := by
    have halone : expressivePair.HeedsAll (duet []) := by
      decide +kernel
    have htogether : expressivePair.HeedsAll (duet secondFinger) := by
      decide +kernel
    rw [halone.heeded_eq, htogether.heeded_eq]
    simp [Operation.core, Operation.pushes, duet, secondFinger, Event.noteOn, Event.pitchBend,
      Event.channelPressure, Event.controller]
  have hduring : expressivePair.During (Shields secondFinger 0) (duet secondFinger) := by
    decide +kernel
  exact ⟨hreach, hgestures, hsame, hduring, isolated hreach hgestures hsame hduring⟩

end Runs

end Engine
end Polyphony
