import Polyphony.Proofs.Engine.Reachable
import Polyphony.Proofs.EventQueue

/-!
# Engines between two blocks

Whatever a host does with an engine, it never finds a change pending, and the
events to come wait in the order of their times.

**Results.**
* `atRest_of_reachable`: so it is for every engine that a host reaches.
-/

namespace Polyphony

namespace Controls

section Pending

variable {c : Controls}

/-- Nothing is pending for any ramp. -/
def NonePending (c : Controls) : Prop :=
  ∀ role, (c.get role).pending = []

theorem nonePending_resting (sampleRate : Float32) :
    (resting sampleRate).NonePending := by
  intro role
  cases role <;> rfl

theorem nonePending_dropPending (c : Controls) :
    c.dropPending.NonePending := by
  intro role
  unfold dropPending
  rw [get_map]
  rfl

theorem NonePending.mute
    (h : c.NonePending) :
    c.mute.NonePending := by
  intro role
  have hrole := h role
  cases role <;> first | exact hrole | rfl

theorem NonePending.withSampleRate
    (h : c.NonePending)
    (sampleRate : Float32) :
    (c.withSampleRate sampleRate).NonePending := by
  intro role
  unfold Controls.withSampleRate
  rw [get_map]
  exact h role

theorem NonePending.withGlides
    (h : c.NonePending)
    (pitch gesture drift : Float32) :
    (c.withGlides pitch gesture drift).NonePending := by
  intro role
  have hrole := h role
  cases role <;> exact hrole

end Pending

end Controls

namespace Engine

section Boundaries

variable {e : Engine}

/-- Nothing is pending for any voice, and the events are in order. -/
structure AtRest (e : Engine) : Prop where
  voices : ∀ v ∈ e.bank.voices, v.toControls.NonePending
  queue : e.queue.Sorted

theorem AtRest.distributeGlides
    (h : e.AtRest) :
    e.distributeGlides.AtRest := by
  refine ⟨?_, h.queue⟩
  intro v hv
  obtain ⟨w, hw, rfl⟩ := List.mem_map.1 hv
  exact (h.voices w hw).withGlides _ _ _

theorem AtRest.withSampleRate
    {after : Engine} {rate : Float32}
    (h : e.AtRest)
    (hrate : e.withSampleRate rate = .ok () after) :
    after.AtRest := by
  unfold Engine.withSampleRate at hrate
  split at hrate
  · cases hrate
    refine AtRest.distributeGlides ⟨?_, h.queue⟩
    intro v hv
    obtain ⟨w, hw, rfl⟩ := List.mem_map.1 hv
    exact (h.voices w hw).withSampleRate rate
  · cases hrate

theorem AtRest.silence
    (h : e.AtRest) :
    e.silence.AtRest := by
  refine ⟨?_, h.queue⟩
  intro v hv
  obtain ⟨w, _, rfl⟩ := List.mem_map.1 hv
  exact (Controls.nonePending_dropPending _).mute

theorem AtRest.adoptAwaited
    (h : e.AtRest) :
    e.adoptAwaited.AtRest := by
  have hadopt (next : Settings) : (e.taken.adopt next).AtRest := by
    unfold adopt
    dsimp only
    split
    · exact AtRest.silence (AtRest.distributeGlides ⟨h.voices, h.queue⟩)
    · exact AtRest.distributeGlides ⟨h.voices, h.queue⟩
  unfold Engine.adoptAwaited
  split
  · exact hadopt _
  · exact h

theorem queue_opened (e : Engine) (n : Nat) :
    (e.opened n).queue = e.queue.dropBefore (e.clock + n) := by
  unfold opened prepare runDrift
  dsimp only
  split
  · split
    · rfl
    · rfl
  · rfl

theorem queue_renderBlock (e : Engine) (n : Nat) (out : Buffer) :
    (e.renderBlock n out).1.queue = e.queue.dropBefore (e.clock + n) := by
  have hperformed : (e.performed n).queue = (e.opened n).queue := by
    rw [performed_eq]
    exact congrArg Background.queue (background_performAll _ _)
  have hrendered : (e.renderBlock n out).1.queue = (e.performed n).queue :=
    congrArg Background.queue (background_renderVoices (e.performed n) n out.voices)
  rw [hrendered, hperformed, queue_opened]

theorem AtRest.renderBlock
    (h : e.AtRest)
    (n : Nat) (out : Buffer) :
    (e.renderBlock n out).1.AtRest := by
  constructor
  · intro v hv
    obtain ⟨w, _, rfl⟩ := List.mem_map.1 hv
    exact Controls.nonePending_dropPending _
  · rw [queue_renderBlock]
    exact h.queue.dropBefore _

theorem AtRest.process
    (h : e.AtRest)
    (frames : Nat) (out : Buffer) :
    (Engine.process e frames out).1.AtRest := by
  unfold Engine.process
  dsimp only
  split
  · exact h.adoptAwaited
  · exact h.adoptAwaited.renderBlock _ _

/-- Between two blocks nothing is pending and the events are in order. -/
theorem atRest_of_reachable
    (h : Reachable e) :
    e.AtRest := by
  induction h with
  | build h =>
      rw [eq_idle_of_build h]
      refine AtRest.distributeGlides ⟨?_, EventQueue.sorted_empty _⟩
      intro v hv
      rw [List.eq_of_mem_replicate hv]
      exact Controls.nonePending_resting _
  | @operate e op _ _ ih =>
      cases op with
      | attachMailbox => exact ⟨ih.voices, ih.queue⟩
      | post s =>
          rw [operate_post]
          exact ⟨ih.voices, ih.queue⟩
      | stage s => exact ⟨ih.voices, ih.queue⟩
      | push event =>
          obtain ⟨queue, hqueue, hpush⟩ := exists_operate_push e event
          rw [hpush]
          rcases hqueue with hqueue | rfl
          · exact ⟨ih.voices, ih.queue.push hqueue⟩
          · exact ih
      | setSampleRate rate =>
          rcases operate_setSampleRate_cases e rate with hrate | hsame
          · exact ih.withSampleRate hrate
          · rw [hsame]
            exact ih
      | setTemperament t => exact ⟨ih.voices, ih.queue⟩
      | setClock time => exact ⟨ih.voices, ih.queue⟩
      | silence => exact ih.silence
      | reset => exact ⟨ih.silence.voices, EventQueue.sorted_flush _⟩
      | process frames out => exact ih.process frames out

end Boundaries

end Engine
end Polyphony
