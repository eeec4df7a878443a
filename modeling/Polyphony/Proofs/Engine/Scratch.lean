import Polyphony.Proofs.Signal.Planes

/-!
# The scratch planes of a block

While a block is mixed, the signals of the shared buses and the drift of the voice
at hand lie in planes of one flat array, each as long as the longest block.  What
lies outside of a plane can neither be read nor written.

**Results.**
* `read?_put?_self`, `read?_put?_of_ne`: what is put into a plane is found there and
  nowhere else.
* `exists_putAll?`: signals that are put into planes one after the other are all found.
-/

namespace Polyphony

/-- The plane of the drift of the voice at hand. -/
def driftPlane : Nat := 0

/-- The plane of the bend that all voices share. -/
def bendPlane : Nat := 1

/-- The plane of the pressure that all voices share. -/
def pressurePlane : Nat := 2

/-- The plane of a modulation that all voices share. -/
def modPlane (slot : Nat) : Nat := 3 + slot

/-- The plane of the bend of a channel, the one of channel one first. -/
def channelPlane (i : Nat) : Nat := 6 + i

/-- The number of scratch planes. -/
def scratchPlanes : Nat := channelPlane channelCount

/-- The scratch planes, one behind the other. -/
structure Scratch where
  /-- All samples. -/
  samples : Signal
  /-- Every plane is there. -/
  size_eq : samples.size = scratchPlanes * maxBlock
deriving DecidableEq

namespace Scratch

/-- Planes of zeros. -/
def silent : Scratch where
  samples := Signal.constant (scratchPlanes * maxBlock) 0.0
  size_eq := by simp [Signal.constant]

/-- Whether a plane is that long and lies within the scratch as far. -/
def Contains (s : Scratch) (plane n : Nat) : Prop :=
  n ≤ maxBlock ∧ plane * maxBlock + n ≤ s.samples.size

instance (s : Scratch) (plane n : Nat) : Decidable (s.Contains plane n) :=
  inferInstanceAs (Decidable (_ ∧ _))

/-- The first `n` samples of a plane. -/
def read? (s : Scratch) (plane n : Nat) : Option Signal :=
  if s.Contains plane n then
    some (s.samples.extract (plane * maxBlock) (plane * maxBlock + n))
  else none

/-- Puts a signal over the first samples of a plane. -/
def put? (s : Scratch) (plane : Nat) (signal : Signal) : Option Scratch :=
  if s.Contains plane signal.size then
    some
      { samples := overwrite signal.toList (plane * maxBlock) s.samples
        size_eq := by simp [s.size_eq] }
  else none

/-- Puts signals into planes one after the other, the first one into `plane`. -/
def putAll? : Nat → List Signal → Scratch → Option Scratch
  | _, [], s => some s
  | plane, signal :: signals, s => do
    let s ← s.put? plane signal
    putAll? (plane + 1) signals s

variable {s after : Scratch} {plane other n : Nat} {signal : Signal}

theorem contains
    (s : Scratch)
    (hplane : plane < scratchPlanes)
    (hn : n ≤ maxBlock) :
    s.Contains plane n := by
  refine ⟨hn, ?_⟩
  have hmul : (plane + 1) * maxBlock ≤ scratchPlanes * maxBlock :=
    Nat.mul_le_mul_right _ hplane
  rw [Nat.add_mul, Nat.one_mul] at hmul
  rw [s.size_eq]
  omega

/-- There are as many samples in every scratch. -/
theorem contains_iff (s t : Scratch) :
    s.Contains plane n ↔ t.Contains plane n := by
  unfold Contains
  rw [s.size_eq, t.size_eq]

theorem exists_put?
    (s : Scratch)
    (hplane : plane < scratchPlanes)
    (hsize : signal.size ≤ maxBlock) :
    ∃ after, s.put? plane signal = some after :=
  ⟨_, if_pos (s.contains hplane hsize)⟩

/-- What has been put into a plane is found there. -/
theorem read?_put?_self
    (h : s.put? plane signal = some after) :
    after.read? plane signal.size = some signal := by
  unfold put? at h
  split at h
  case isFalse => cases h
  case isTrue hcontains =>
    have hin : after.Contains plane signal.size := (contains_iff s after).1 hcontains
    cases h
    unfold read?
    rw [if_pos hin]
    congr 1
    apply Array.ext_getElem?
    intro j
    rw [Array.getElem?_extract]
    have hle := hcontains.2
    by_cases hj : j < signal.size
    · rw [if_pos (by simp; omega), getElem?_overwrite _ _ _ _ (by omega), Array.length_toList,
        if_pos (by omega), Nat.add_sub_cancel_left, Array.getElem?_toList]
    · rw [if_neg (by simp; omega), Array.getElem?_eq_none (by omega)]

/-- What is put into one plane leaves the others as they are. -/
theorem read?_put?_of_ne
    (h : s.put? plane signal = some after)
    (hne : other ≠ plane)
    (n : Nat) :
    after.read? other n = s.read? other n := by
  unfold put? at h
  split at h
  case isFalse => cases h
  case isTrue hcontains =>
    cases h
    unfold read?
    by_cases hin : s.Contains other n
    · rw [if_pos hin, if_pos ((contains_iff _ _).1 hin)]
      congr 1
      apply Array.ext_getElem?
      intro j
      have hle := hin.2
      rw [Array.getElem?_extract, Array.getElem?_extract, size_overwrite]
      split
      case isFalse => rfl
      case isTrue hj =>
        have hlen : signal.size ≤ 1 * maxBlock := by
          rw [Nat.one_mul]
          exact hcontains.1
        have hn := hin.1
        have hout : ¬ (plane * maxBlock ≤ other * maxBlock + j
            ∧ other * maxBlock + j < plane * maxBlock + signal.size) :=
          Buffer.not_in_planes hlen (by omega) (by omega)
        rw [getElem?_overwrite _ _ _ _ (by omega), Array.length_toList, if_neg hout]
    · rw [if_neg hin, if_neg fun h => hin ((contains_iff _ _).1 h)]

/-- Signals that are put into planes one after the other are all found, and no others change. -/
theorem exists_putAll?
    {signals : List Signal}
    (hsize : ∀ signal ∈ signals, signal.size = n)
    (hn : n ≤ maxBlock) :
    ∀ {plane : Nat} (s : Scratch), plane + signals.length ≤ scratchPlanes →
      ∃ after, putAll? plane signals s = some after
        ∧ (∀ k < signals.length, after.read? (plane + k) n = signals[k]?)
        ∧ ∀ other < plane, after.read? other n = s.read? other n := by
  induction signals with
  | nil =>
      intro plane s _
      exact ⟨s, rfl, fun k hk => absurd hk (Nat.not_lt_zero k), fun _ _ => rfl⟩
  | cons signal signals ih =>
      intro plane s hplanes
      rw [List.length_cons] at hplanes
      have hsignal : signal.size = n := hsize signal List.mem_cons_self
      have hplane : plane < scratchPlanes := by
        omega
      have hbehind : plane + 1 + signals.length ≤ scratchPlanes := by
        omega
      obtain ⟨first, hfirst⟩ := s.exists_put? hplane (hsignal ▸ hn)
      obtain ⟨after, hafter, hread, hkept⟩ :=
        ih (fun t ht => hsize t (List.mem_cons_of_mem _ ht)) first hbehind
      refine ⟨after, ?_, ?_, ?_⟩
      · show ((s.put? plane signal).bind fun s => putAll? (plane + 1) signals s) = _
        rw [hfirst]
        exact hafter
      · intro k hk
        cases k with
        | zero =>
            have hself := read?_put?_self hfirst
            rw [hsignal] at hself
            rw [Nat.add_zero, hkept plane (by omega), hself]
            rfl
        | succ k =>
            have hshift : plane + (k + 1) = plane + 1 + k := by
              omega
            rw [hshift, hread k (by simpa using hk)]
            rfl
      · intro other hother
        rw [hkept other (by omega), read?_put?_of_ne hfirst (by omega)]

end Scratch
end Polyphony
