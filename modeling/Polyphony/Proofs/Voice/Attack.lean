import Polyphony.Proofs.Ramp.Horizon
import Polyphony.Proofs.Ramp.Landing
import Polyphony.Voice.Basic

/-!
# The attack of a stolen voice

An envelope that follows a gate sees a new note only if the gate rises.  The gate of
a voice that is stolen is one already, so it is taken to zero for the sample in front
of the attack, which is moved to the second sample of a block if it would be on the
first one.

**Ramps that jump.**  Without a glide time a change is all that happens to a ramp: the
samples in front of it are as they would be without it, and from it on the samples
are its value, if it is the last one.

**Results.**
* `getElem?_render_schedule_of_lt`: what comes before a change.
* `getElem?_render_schedule_of_le`: what comes from the last change on.
* `edge_of_steal`: the gate of a stolen voice, with and without a dip.
-/

namespace Polyphony

namespace Ramp

section Changing

variable {r : Ramp} {value : Float32} {i k n : Nat}

/-- A change makes the list of the pending ones longer by one at most. -/
theorem length_insertChange_le (pending : List Change) (c : Change) :
    (insertChange pending c).length ≤ pending.length + 1 := by
  rcases insertChange_cases pending c with
    ⟨_, h⟩ | ⟨init, last, hp, ⟨_, h⟩ | ⟨_, _, h⟩ | ⟨_, _, h⟩⟩
  · simp [h]
  · rw [h, hp]
    simp
  · simp [h]
  · rw [h, hp]
    simp

/-- If all changes are for the first samples up to one, so they are with one more. -/
theorem offset_le_of_mem_schedule
    (hbefore : ∀ c ∈ r.pending, c.offset ≤ k)
    {c : Change}
    (hc : c ∈ (r.schedule value k).pending) :
    c.offset ≤ k := by
  rcases offset_of_mem_insertChange hc with hnew | ⟨b, hb, hold⟩
  · exact hnew.le
  · exact hold.trans_le (hbefore b hb)

/-- In front of a change that has a place, a block is as it is without the change. -/
theorem getElem?_render_schedule_of_lt
    (hplace : HasPlace r.pending { value, offset := k })
    (hk : k < n)
    (hi : i < k) :
    ((r.schedule value k).render n).1[i]? = (r.render n).1[i]? := by
  have hn : 0 < n := Nat.zero_lt_of_lt hk
  have hspares : Spares k r.pending { value, offset := k } := ⟨le_rfl, .inl hplace⟩
  have hsame : ((r.schedule value k).within n).upTo k = (r.within n).upTo k := by
    rw [upTo_within _ hk, upTo_within _ hk, upTo_schedule hspares]
  rw [render_eq _ hn, render_eq _ hn, List.getElem?_toArray, List.getElem?_toArray,
    getElem?_samples _ (by omega), getElem?_samples _ (by omega),
    value_iterate_congr (upTo_congr hsame hi)]

/-- Without a glide time, the samples from the last change on are its value. -/
theorem getElem?_render_schedule_of_le
    (hjumps : r.glideSamples = 0)
    (hbefore : ∀ c ∈ r.pending, c.offset ≤ k)
    (hk : k ≤ i)
    (hi : i < n) :
    ((r.schedule value k).render n).1[i]? = some value := by
  have hlanding : (r.schedule value k).landing n ≤ k := by
    refine landing_le_iff.2 fun c hc => ?_
    have hle := offset_le_of_mem_schedule hbefore hc
    simp only [isDue, decide_eq_true_eq]
    omega
  have hlanded : (r.schedule value k).landing n
      + max (r.schedule value k).glideSamples 1 - 1 ≤ i := by
    have hsamples : (r.schedule value k).glideSamples = 0 := hjumps
    rw [hsamples]
    omega
  rw [render_eq _ (Nat.zero_lt_of_lt hi), List.getElem?_toArray, getElem?_samples _ hi,
    value_of_landed (pending_schedule_ne_nil r value k) hlanded, goal_schedule]

end Changing

end Ramp

namespace Voice

section Stealing

variable {v : Voice} {e : Event} {i n : Nat}

/-- There is a sample in front of every attack. -/
theorem one_le_attackTime (e : Event) :
    1 ≤ attackTime e :=
  Nat.le_max_right _ _

/-- The gate after a theft: the attack, with a dip in front of it if there is one. -/
theorem gate_steal (v : Voice) (e : Event) (t : Temperament) (retrigger : Bool) :
    (v.steal e t retrigger).gate
      = (if retrigger then v.gate.schedule 0.0 (attackTime e - 1) else v.gate).schedule
          1.0 (attackTime e) := by
  cases retrigger <;> rfl

/--
A voice whose gate jumps, and has room for two changes, is stolen in a block that goes
on beyond the attack.  If no change of the gate is pending for the attack or later, a
theft with a dip makes the gate zero right in front of the attack and one from there
on, and changes nothing else; and a theft without a dip makes it one from the attack on,
and changes nothing else.
-/
theorem edge_of_steal
    (v : Voice) (e : Event) (t : Temperament)
    (hjumps : v.gate.glideSamples = 0)
    (hroom : v.gate.pending.length < 63)
    (hbefore : ∀ c ∈ v.gate.pending, c.offset < attackTime e)
    (hn : attackTime e < n) :
    let attack := attackTime e
    let plain := (v.gate.render n).1
    let dipped := ((v.steal e t true).gate.render n).1
    let smooth := ((v.steal e t false).gate.render n).1
    (dipped[attack - 1]? = some 0.0
        ∧ (∀ i, attack ≤ i → i < n → dipped[i]? = some 1.0)
        ∧ ∀ i, i < attack - 1 → dipped[i]? = plain[i]?)
      ∧ (∀ i, attack ≤ i → i < n → smooth[i]? = some 1.0)
      ∧ ∀ i, i < attack → smooth[i]? = plain[i]? := by
  intro attack plain dipped smooth
  have hone : 1 ≤ attack := one_le_attackTime e
  let down := v.gate.schedule 0.0 (attack - 1)
  have hsooner : ∀ c ∈ v.gate.pending, c.offset ≤ attack - 1 :=
    fun c hc => Nat.le_sub_one_of_lt (hbefore c hc)
  have hdown : ∀ c ∈ down.pending, c.offset ≤ attack := fun c hc =>
    (Ramp.offset_le_of_mem_schedule hsooner hc).trans (Nat.sub_le _ _)
  have hplace : Ramp.HasPlace v.gate.pending { value := 0.0, offset := attack - 1 } :=
    .inl (by unfold maxPending; omega)
  have hroomy : Ramp.HasPlace down.pending { value := 1.0, offset := attack } := by
    have hlength : down.pending.length ≤ v.gate.pending.length + 1 :=
      Ramp.length_insertChange_le _ _
    exact .inl (by unfold maxPending; omega)
  have hdipped : dipped = ((down.schedule 1.0 attack).render n).1 :=
    congrArg (fun r => (Ramp.render r n).1) (gate_steal v e t true)
  -- in front of the attack, a theft with a dip is the dip alone
  have hfront : ∀ i, i < attack → dipped[i]? = (down.render n).1[i]? := fun i hi =>
    hdipped ▸ Ramp.getElem?_render_schedule_of_lt hroomy hn hi
  refine ⟨⟨?_, ?_, ?_⟩, ?_, ?_⟩
  · rw [hfront _ (by omega)]
    exact Ramp.getElem?_render_schedule_of_le hjumps hsooner le_rfl (by omega)
  · intro i hle hi
    rw [hdipped]
    exact Ramp.getElem?_render_schedule_of_le hjumps hdown hle hi
  · intro i hi
    rw [hfront i (by omega)]
    exact Ramp.getElem?_render_schedule_of_lt hplace (by omega) hi
  · intro i hle hi
    exact Ramp.getElem?_render_schedule_of_le hjumps (fun c hc => (hbefore c hc).le) hle hi
  · intro i hi
    have hattack : Ramp.HasPlace v.gate.pending { value := 1.0, offset := attack } :=
      .inl (by unfold maxPending; omega)
    exact Ramp.getElem?_render_schedule_of_lt hattack hn hi

/-- A voice that sounds, whose gate is about to close and to open by a quarter. -/
def swayingVoice : Voice :=
  { idle 1000.0 with
    gate := { sampleRate := 1000.0, value := 1.0, target := 1.0,
              pending := [⟨0.0, 1⟩, ⟨0.25, 3⟩] } }

/-- A theft with a dip takes the place of the change in front of it, one without leaves it. -/
theorem edge_of_swayingVoice :
    let on := Event.noteOn 7 1 64.0 0.5 4
    (swayingVoice.gate.glideSamples = 0
        ∧ swayingVoice.gate.pending.length < 63
        ∧ (∀ c ∈ swayingVoice.gate.pending, c.offset < attackTime on)
        ∧ attackTime on < 6)
      ∧ (swayingVoice.gate.render 6).1 = #[1.0, 0.0, 0.0, 0.25, 0.25, 0.25]
      ∧ ((swayingVoice.steal on {} true).gate.render 6).1 = #[1.0, 0.0, 0.0, 0.0, 1.0, 1.0]
      ∧ ((swayingVoice.steal on {} true).gate.render 6).1[3]? = some (0.0 : Float32)
      ∧ ∀ i, i < 4 → ((swayingVoice.steal on {} false).gate.render 6).1[i]?
          = (swayingVoice.gate.render 6).1[i]? := by
  intro on
  have hbefore : ∀ c ∈ swayingVoice.gate.pending, c.offset < attackTime on := by
    decide
  obtain ⟨⟨hdip, _⟩, _, hfront⟩ := edge_of_steal swayingVoice on {} rfl (by decide) hbefore
    (show attackTime on < 6 by decide)
  exact ⟨⟨rfl, by decide, hbefore, by decide⟩, by decide +kernel, by decide +kernel, hdip,
    hfront⟩

end Stealing

end Voice
end Polyphony
