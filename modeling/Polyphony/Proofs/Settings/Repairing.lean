import Polyphony.Proofs.Settings.Soundness

/-!
# Checking and repairing agree

A check looks for the first number that breaks its rule, and a repair puts a prior
value in place of every number that does.  What the one finds at fault is just what
the other mends, so settings pass the check exactly if a repair leaves them alone.

**Results.**
* `sameBits_iff_eq`: settings that agree in every field are the same.
* `apply_repaired`: a repair keeps all that is no number.
* `repair_mends_faults`: a repair with settings that pass the check at hand.
-/

namespace Polyphony

/-- A number is determined by its bits. -/
theorem Binary32.eq_of_toBits_eq
    {x y : Float32}
    (h : x.toBits = y.toBits) :
    x = y := by
  rcases x with ⟨⟨x, _⟩⟩
  rcases y with ⟨⟨y, _⟩⟩
  obtain rfl : x = y := h
  rfl

namespace Settings

section Numbers

/-- The settings without their numbers. -/
def unnumbered (s : Settings) : Settings :=
  { s with bendRange := 0.0, glide := 0.0, dataRate := 0.0, masterTune := 0.0, drift := 0.0 }

/-- Settings that agree in every field, and in every bit of their numbers. -/
structure SameBits (s u : Settings) : Prop where
  unnumbered : s.unnumbered = u.unnumbered
  bits : ∀ n : NumericSetting, (n.get s).toBits = (n.get u).toBits

/-- Settings that agree in every field are the same. -/
theorem sameBits_iff_eq {s u : Settings} :
    s.SameBits u ↔ s = u := by
  constructor
  · rintro ⟨hrest, hbits⟩
    have hnumber (n : NumericSetting) : n.get s = n.get u :=
      Binary32.eq_of_toBits_eq (hbits n)
    have hbend := hnumber .bendRange
    have hglide := hnumber .glide
    have hrate := hnumber .dataRate
    have htune := hnumber .masterTune
    have hdrift := hnumber .drift
    cases s
    cases u
    simp_all [unnumbered, NumericSetting.get]
  · rintro rfl
    exact ⟨rfl, fun _ => rfl⟩

end Numbers

section Repair

variable {s prior : Settings}

/-- A repair keeps whatever does not depend on a number. -/
theorem apply_repaired
    {α : Type}
    {f : Settings → α}
    (hset : ∀ (s : Settings) (value : Float32) (n : NumericSetting), f (n.set s value) = f s)
    (s prior : Settings) :
    f (s.repaired prior) = f s := by
  have hone (s : Settings) (n : NumericSetting) : f (repairOne prior s n) = f s := by
    unfold repairOne
    split
    · exact hset s _ n
    · rfl
  have hall (settings : List NumericSetting) :
      f (settings.foldl (repairOne prior) s) = f s := by
    induction settings generalizing s with
    | nil => rfl
    | cons n settings ih => exact (ih (repairOne prior s n)).trans (hone s n)
  exact hall _

@[simp] theorem voices_repaired (s prior : Settings) :
    (s.repaired prior).voices = s.voices :=
  apply_repaired (f := Settings.voices) (fun _ _ n => by cases n <;> rfl) s prior

@[simp] theorem unison_repaired (s prior : Settings) :
    (s.repaired prior).unison = s.unison :=
  apply_repaired (f := Settings.unison) (fun _ _ n => by cases n <;> rfl) s prior

theorem unnumbered_repaired (s prior : Settings) :
    (s.repaired prior).unnumbered = s.unnumbered :=
  apply_repaired (f := unnumbered) (fun _ _ n => by cases n <;> rfl) s prior

/--
With prior settings that pass the check, what is repaired passes it.  Settings pass the
check exactly if the repair leaves them alone, bit for bit.  All that is no number stays,
and so does every number that its own rule admits; the other numbers get their prior
values.  Another repair, whatever the settings at hand, changes nothing any more.
-/
theorem repair_mends_faults
    (s prior : Settings)
    (hprior : prior.fault? = none) :
    (s.repaired prior).fault? = none
      ∧ (s.fault? = none ↔ (s.repaired prior).SameBits s)
      ∧ (s.repaired prior).unnumbered = s.unnumbered
      ∧ (∀ n : NumericSetting,
          (n.Admits (n.get s) → (n.get (s.repaired prior)).toBits = (n.get s).toBits)
            ∧ (¬ n.Admits (n.get s) →
                (n.get (s.repaired prior)).toBits = (n.get prior).toBits))
      ∧ ∀ other, ((s.repaired prior).repaired other).SameBits (s.repaired prior) := by
  have hsound : (s.repaired prior).Sound := (fault?_eq_none_iff.1 hprior).repaired s
  refine ⟨fault?_eq_none_iff.2 hsound, ?_, unnumbered_repaired s prior, ?_, ?_⟩
  · rw [sameBits_iff_eq]
    constructor
    · intro hpasses
      exact repaired_of_sound (fault?_eq_none_iff.1 hpasses) prior
    · intro hsame
      rw [← hsame]
      exact fault?_eq_none_iff.2 hsound
  · intro n
    rw [get_repaired]
    exact ⟨fun hadmits => by rw [if_pos hadmits], fun hfault => by rw [if_neg hfault]⟩
  · intro other
    exact sameBits_iff_eq.2 (repaired_of_sound hsound other)

/-- Settings with two faults, and a bend range that may be negative. -/
def faultyPair : Settings :=
  { voices := 2, unison := true, bendRange := -2.0, glide := 0.0 / 0.0, drift := -1.0 }

/-- A repair mends the glide time and the drift, and keeps all the rest. -/
theorem repair_faultyPair :
    ({ glide := 0.05, drift := 0.5 } : Settings).fault? = none
      ∧ faultyPair.fault? = some (.notFinite .glide)
      ∧ (faultyPair.repaired { glide := 0.05, drift := 0.5 }).fault? = none
      ∧ ¬ (faultyPair.repaired { glide := 0.05, drift := 0.5 }).SameBits faultyPair
      ∧ faultyPair.repaired { glide := 0.05, drift := 0.5 }
          = { faultyPair with glide := 0.05, drift := 0.5 } := by
  have hprior : ({ glide := 0.05, drift := 0.5 } : Settings).fault? = none := by
    decide +kernel
  have hfault : faultyPair.fault? = some (.notFinite .glide) := by
    decide +kernel
  obtain ⟨hpasses, hiff, _⟩ :=
    repair_mends_faults faultyPair { glide := 0.05, drift := 0.5 } hprior
  refine ⟨hprior, hfault, hpasses, fun hsame => ?_, by decide +kernel⟩
  rw [hiff.2 hsame] at hfault
  cases hfault

end Repair

end Settings
end Polyphony
