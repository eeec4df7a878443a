import Polyphony.Settings.Check

/-!
# Settings without fault

Settings are without fault when each of their numbers keeps its rule.  A repair
with such settings at hand leads to such settings, and leaves them alone if
nothing was at fault.

**Rules.**  Each number has a rule of its own, which says nothing about the others.

**Results.**
* `NumericSetting.fault?_eq_none_iff`: what the rule of a number is.
* `get_repaired`: every number after a repair.
* `Sound.repaired`: what is repaired with sound settings is sound.
* `repaired_of_sound`: sound settings need no repair.
-/

namespace Polyphony

namespace NumericSetting

theorem mem_all (n : NumericSetting) : n ∈ all := by
  cases n <;> decide

theorem get_set_self (s : Settings) (value : Float32) (n : NumericSetting) :
    n.get (n.set s value) = value := by
  cases n <;> rfl

theorem get_set_of_ne
    {m n : NumericSetting}
    (h : m ≠ n)
    (s : Settings) (value : Float32) :
    m.get (n.set s value) = m.get s := by
  cases m <;> cases n <;> first | rfl | exact absurd rfl h

/-- The rule of a setting: it is finite, and not negative unless it may be. -/
def Admits (n : NumericSetting) (value : Float32) : Prop :=
  value.isFinite = true ∧ (n.isSigned = false → ¬ value < 0.0)

instance (n : NumericSetting) (value : Float32) : Decidable (n.Admits value) :=
  inferInstanceAs (Decidable (_ ∧ _))

/-- A value is without fault exactly if the rule admits it. -/
theorem fault?_eq_none_iff (n : NumericSetting) (value : Float32) :
    n.fault? value = none ↔ n.Admits value := by
  unfold fault? Admits
  cases value.isFinite with
  | false => simp
  | true => cases n.isSigned <;> simp

end NumericSetting

namespace Settings

section Soundness

variable {s prior : Settings}

/-- Every number keeps its rule. -/
def Sound (s : Settings) : Prop :=
  ∀ n : NumericSetting, n.fault? (n.get s) = none

/-- Sound settings are those without a fault to report. -/
theorem fault?_eq_none_iff :
    s.fault? = none ↔ s.Sound := by
  unfold fault? Sound
  rw [List.findSome?_eq_none_iff]
  constructor
  · intro h n
    exact h n n.mem_all
  · intro h n _
    exact h n

/-- The value of a setting after one of them has been repaired. -/
theorem get_repairOne (prior s : Settings) (m n : NumericSetting) :
    m.get (repairOne prior s n)
      = if m = n ∧ (n.fault? (n.get s)).isSome then m.get prior else m.get s := by
  unfold repairOne
  cases hfault : n.fault? (n.get s) with
  | none => simp
  | some fault =>
      by_cases hmn : m = n
      · subst hmn
        simp [NumericSetting.get_set_self]
      · simp [hmn, NumericSetting.get_set_of_ne hmn]

/-- Going through a list, a repair mends the settings of the list and no others. -/
theorem get_foldl_repairOne
    (prior : Settings)
    (settings : List NumericSetting)
    (s : Settings) (n : NumericSetting) :
    n.get (settings.foldl (repairOne prior) s)
      = if n ∈ settings ∧ ¬ n.Admits (n.get s) then n.get prior else n.get s := by
  induction settings generalizing s with
  | nil => simp
  | cons m settings ih =>
      have hone : n.get (repairOne prior s m)
          = if n = m ∧ ¬ n.Admits (n.get s) then n.get prior else n.get s := by
        rw [get_repairOne]
        by_cases hnm : n = m
        · subst hnm
          simp [← NumericSetting.fault?_eq_none_iff, Option.isSome_iff_ne_none]
        · simp [hnm]
      rw [List.foldl_cons, ih, hone]
      by_cases hmended : n = m ∧ ¬ n.Admits (n.get s)
      · -- a prior value stays, whether it keeps the rule or not
        have hmem : n ∈ m :: settings := hmended.1 ▸ List.mem_cons_self
        rw [if_pos hmended, ite_self, if_pos ⟨hmem, hmended.2⟩]
      · rw [if_neg hmended]
        by_cases hadmits : n.Admits (n.get s)
        · simp [hadmits]
        · have hnm : n ≠ m := fun hnm => hmended ⟨hnm, hadmits⟩
          simp [hnm]

/-- A number is repaired exactly if its own rule does not admit it. -/
theorem get_repaired (s prior : Settings) (n : NumericSetting) :
    n.get (s.repaired prior) = if n.Admits (n.get s) then n.get s else n.get prior := by
  unfold repaired
  rw [get_foldl_repairOne]
  by_cases hadmits : n.Admits (n.get s)
  · simp [hadmits]
  · simp [hadmits, n.mem_all]

/-- With sound settings at hand every repair succeeds. -/
theorem Sound.repaired
    (hprior : prior.Sound)
    (s : Settings) :
    (s.repaired prior).Sound := by
  intro n
  rw [get_repaired]
  split
  case isTrue hadmits => exact (n.fault?_eq_none_iff _).2 hadmits
  case isFalse => exact hprior n

/-- Sound settings are left alone. -/
theorem repaired_of_sound
    (h : s.Sound)
    (prior : Settings) :
    s.repaired prior = s := by
  have hstay (settings : List NumericSetting) :
      settings.foldl (repairOne prior) s = s := by
    induction settings with
    | nil => rfl
    | cons n settings ih =>
        have hone : repairOne prior s n = s := by
          unfold repairOne
          rw [h n]
        rw [List.foldl_cons, hone]
        exact ih
  exact hstay _

/-- The settings that an engine begins with are sound. -/
theorem sound_default : ({} : Settings).Sound := by
  intro n
  cases n <;> decide +kernel

end Soundness

end Settings
end Polyphony
