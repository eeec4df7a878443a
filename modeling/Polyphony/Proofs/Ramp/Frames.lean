import Mathlib.Data.List.Forall2
import Mathlib.Data.List.TakeWhile
import Mathlib.Logic.Function.Iterate
import Polyphony.Proofs.Binary32.Zero
import Polyphony.Proofs.Ramp.Pending

/-!
# Ramps frame by frame

Rendering goes through a block with an index and changes that count from its
beginning.  Here a ramp moves by itself, one frame after the other, and its
pending changes count from the next frame: `next` takes the changes due now,
moves the glide by one sample and lets the rest come nearer.

A block of `n` frames is then `n` times `next`, and cutting a block in two is
cutting the number of frames.

**Results.**
* `render_eq`: a rendered block holds the values of the frames, and leaves the
  ramp as the frames do.
* `addOnto_fst`: the same for a block that the ramp is added to, up to the sign of
  zero where the ramp rests on it.
* `next_scheduleAll`: changes to come may be scheduled before or after the frame.
-/

namespace Polyphony
namespace Ramp

section Frames

/-- Takes several goals, one after the other. -/
def aimAll (changes : List Change) (r : Ramp) : Ramp :=
  changes.foldl (fun s c => s.aim c.value) r

/-- The ramp after one frame of a block that goes on. -/
def next (r : Ramp) : Ramp :=
  { (aimAll (due r.pending) r).glideOn with pending := passed r.pending }

/-- The ramp after a frame in which it was not rendered: its changes come nearer. -/
def skip (r : Ramp) : Ramp :=
  { r with pending := passed r.pending }

/-- The values of the next frames. -/
def samples : Nat → Ramp → List Float32
  | 0, _ => []
  | n + 1, r => r.next.value :: samples n r.next

/-- Schedules several changes. -/
def scheduleAll (r : Ramp) (changes : List Change) : Ramp :=
  { r with pending := insertAll r.pending changes }

@[simp] theorem length_samples (n : Nat) (r : Ramp) :
    (samples n r).length = n := by
  induction n generalizing r with
  | zero => rfl
  | succ n ih => simp [samples, ih]

@[simp] theorem pending_next (r : Ramp) :
    r.next.pending = passed r.pending := by
  rfl

/-- Aiming does not look at the pending changes. -/
theorem aim_withPending (r : Ramp) (pending : List Change) (goal : Float32) :
    ({ r with pending } : Ramp).aim goal = { r.aim goal with pending } := by
  unfold aim
  dsimp only
  split
  · rfl
  · rfl

theorem aimAll_withPending (r : Ramp) (pending changes : List Change) :
    aimAll changes { r with pending } = { aimAll changes r with pending } := by
  induction changes generalizing r with
  | nil => rfl
  | cons c changes ih =>
      show aimAll changes (({ r with pending } : Ramp).aim c.value) = _
      rw [aim_withPending, ih]
      rfl

/-- Gliding does not look at the pending changes. -/
theorem glideOn_withPending (r : Ramp) (pending : List Change) :
    ({ r with pending } : Ramp).glideOn = { r.glideOn with pending } := by
  cases r with
  | mk _ _ _ _ _ _ _ remaining =>
      rcases remaining with _ | _ | left
      · rfl
      · rfl
      · rfl

/-- Goals are taken whatever the offsets of their changes. -/
theorem aimAll_map
    (f : Change → Change)
    (hf : ∀ c, (f c).value = c.value)
    (changes : List Change) (r : Ramp) :
    aimAll (changes.map f) r = aimAll changes r := by
  unfold aimAll
  rw [List.foldl_map]
  simp only [hf]

/-- Changes to come may be scheduled before or after a frame. -/
theorem next_scheduleAll
    {r : Ramp} {changes : List Change}
    (hord : Ordered r.pending)
    (hplaces : HavePlaces r.pending changes)
    (hchanges : ∀ c ∈ changes, 1 ≤ c.offset) :
    (r.scheduleAll changes).next = r.next.scheduleAll (changes.map (Change.earlier 1)) := by
  unfold next scheduleAll
  dsimp only
  rw [passed_insertAll hord hplaces hchanges, due_insertAll hplaces hchanges,
    aimAll_withPending, glideOn_withPending]

/-- The same for a frame in which the ramp was not rendered. -/
theorem skip_scheduleAll
    {r : Ramp} {changes : List Change}
    (hord : Ordered r.pending)
    (hplaces : HavePlaces r.pending changes)
    (hchanges : ∀ c ∈ changes, 1 ≤ c.offset) :
    (r.scheduleAll changes).skip = r.skip.scheduleAll (changes.map (Change.earlier 1)) := by
  unfold skip scheduleAll
  dsimp only
  rw [passed_insertAll hord hplaces hchanges]

/-- Without a glide in progress there is nothing to move. -/
theorem glideOn_of_zero
    {r : Ramp}
    (h : r.remaining = 0) :
    r.glideOn = r := by
  simp [glideOn, h]

/-- The last step lands on the goal. -/
theorem glideOn_of_one
    {r : Ramp}
    (h : r.remaining = 1) :
    r.glideOn = { r with remaining := 0, value := r.target } := by
  simp [glideOn, h]

theorem glideOn_of_add_two
    {r : Ramp} {left : Nat}
    (h : r.remaining = left + 2) :
    r.glideOn = { r with remaining := left + 1, value := r.value + r.step } := by
  simp [glideOn, h]

/-- With nothing pending, a frame only goes on with the glide. -/
theorem next_of_pending_nil
    {r : Ramp}
    (h : r.pending = []) :
    r.next = r.glideOn := by
  rcases r with ⟨pending, _, _, _, _, _, _, remaining⟩
  obtain rfl : pending = [] := h
  rcases remaining with _ | _ | left <;> rfl

/-- A ramp at rest stays at rest. -/
theorem next_of_isResting
    {r : Ramp}
    (h : r.isResting = true) :
    r.next = r := by
  obtain ⟨hnil, hzero⟩ : r.pending = [] ∧ r.remaining = 0 := by
    simpa [isResting] using h
  rw [next_of_pending_nil hnil, glideOn_of_zero hzero]

theorem samples_of_isResting
    {r : Ramp}
    (h : r.isResting = true)
    (n : Nat) :
    samples n r = List.replicate n r.value := by
  induction n with
  | zero => rfl
  | succ n ih =>
      rw [samples, next_of_isResting h, ih, List.replicate_succ]

/-- When as many frames have passed as the offsets count, nothing is pending. -/
theorem pending_iterate
    {f : Ramp → Ramp}
    (hf : ∀ r, (f r).pending = passed r.pending)
    {n : Nat} {r : Ramp}
    (h : ∀ c ∈ r.pending, c.offset < n) :
    (f^[n] r).pending = [] := by
  induction n generalizing r with
  | zero =>
      apply List.eq_nil_iff_forall_not_mem.2
      intro c hc
      exact absurd (h c hc) (Nat.not_lt_zero _)
  | succ n ih =>
      rw [Function.iterate_succ_apply]
      apply ih
      intro c hc
      rw [hf] at hc
      obtain ⟨d, hd, rfl⟩ := List.mem_map.1 hc
      have hlt := h d ((List.dropWhile_suffix _).mem hd)
      cases n with
      | succ n =>
          simp only [Change.offset_earlier]
          omega
      | zero =>
          -- in the last frame everything left is due
          have hall : ∀ c ∈ r.pending, c.isNow = true := by
            intro c hc
            have := h c hc
            simp [Change.isNow]
            omega
          rw [List.dropWhile_eq_nil_iff.2 hall] at hd
          exact absurd hd (by simp)

/-- Frames that were not rendered only take the pending changes away. -/
theorem iterate_skip
    {n : Nat} {r : Ramp}
    (h : ∀ c ∈ r.pending, c.offset < n) :
    skip^[n] r = r.dropPending := by
  have hskip (m : Nat) : ∀ r : Ramp, skip^[m] r = { r with pending := (skip^[m] r).pending } := by
    induction m with
    | zero =>
        intro r
        rfl
    | succ m ih =>
        intro r
        exact ih r.skip
  rw [hskip, pending_iterate (fun _ => rfl) h]
  rfl

end Frames

section Rendering

/-- A change as it looks from sample `i` of a block whose last sample is `last`. -/
def localChange (last i : Nat) (c : Change) : Change :=
  { c with offset := min c.offset last - i }

/-- A ramp as it looks from sample `i` of a block whose last sample is `last`. -/
def fromSample (last i : Nat) (r : Ramp) : Ramp :=
  { r with pending := r.pending.map (localChange last i) }

/-- A ramp with every pending change within a block of `n` samples. -/
def within (n : Nat) (r : Ramp) : Ramp :=
  r.fromSample (n - 1) 0

/-- Changes that are within the block stay where they are. -/
theorem within_of_lt
    {n : Nat} {r : Ramp}
    (h : ∀ c ∈ r.pending, c.offset < n) :
    r.within n = r := by
  have hsame : r.pending.map (localChange (n - 1) 0) = r.pending := by
    conv_rhs => rw [← List.map_id r.pending]
    refine List.map_congr_left ?_
    intro c hc
    have hlt := h c hc
    have hmin : min c.offset (n - 1) = c.offset := by
      omega
    simp [localChange, hmin]
  unfold within fromSample
  rw [hsame]

/-- One step through a block is one frame, as seen from its samples. -/
theorem advance_fromSample (last i : Nat) (r : Ramp) :
    (r.advance last i).fromSample last (i + 1) = (r.fromSample last i).next := by
  have hnow : Change.isNow ∘ localChange last i = isDue last i := by
    funext c
    show (min c.offset last - i == 0) = decide (min c.offset last ≤ i)
    simp only [beq_eq_decide, Nat.sub_eq_zero_iff_le]
  have hearlier :
      Change.earlier 1 ∘ localChange last i = localChange last (i + 1) := by
    funext c
    simp [Change.earlier, localChange, Nat.sub_sub]
  have hdue :
      due (r.pending.map (localChange last i))
        = (r.pending.takeWhile (isDue last i)).map (localChange last i) := by
    rw [due, List.takeWhile_map, hnow]
  have hpassed :
      passed (r.pending.map (localChange last i))
        = (r.pending.dropWhile (isDue last i)).map (localChange last (i + 1)) := by
    rw [passed, List.dropWhile_map, hnow, List.map_map, hearlier]
  have hvalues :
      aimAll ((r.pending.takeWhile (isDue last i)).map (localChange last i)) r
        = aimAll (r.pending.takeWhile (isDue last i)) r :=
    aimAll_map (localChange last i) (fun _ => rfl) _ _
  show _ = ({ (aimAll (due (r.pending.map (localChange last i)))
      { r with pending := r.pending.map (localChange last i) }).glideOn with
    pending := passed (r.pending.map (localChange last i)) } : Ramp)
  rw [hdue, hpassed, aimAll_withPending, glideOn_withPending, hvalues]
  unfold advance takeDue
  dsimp only
  rw [glideOn_withPending]
  rfl

/-- Going through a block takes its frames one after the other. -/
theorem traverse_eq
    (mix : Float32 → Float32 → Float32)
    (last : Nat)
    (block : List Float32) :
    ∀ (i : Nat) (r : Ramp) (done : Signal),
      (traverse mix last block i r done).1.toList
          = done.toList ++ List.zipWith mix block (samples block.length (r.fromSample last i))
        ∧
      (traverse mix last block i r done).2.fromSample last (i + block.length)
          = next^[block.length] (r.fromSample last i) := by
  induction block with
  | nil =>
      intro i r done
      simp [traverse]
  | cons x xs ih =>
      intro i r done
      have hstep := advance_fromSample last i r
      have hvalue : (r.advance last i).value = (r.fromSample last i).next.value := by
        rw [← hstep]
        rfl
      obtain ⟨hsignal, hramp⟩ :=
        ih (i + 1) (r.advance last i) (done.push (mix x (r.advance last i).value))
      rw [hstep] at hsignal hramp
      constructor
      · show (traverse mix last xs (i + 1) (r.advance last i) _).1.toList = _
        rw [hsignal, hvalue]
        simp [samples]
      · show (traverse mix last xs (i + 1) (r.advance last i) _).2.fromSample last _ = _
        rw [List.length_cons, Function.iterate_succ_apply, ← hramp]
        congr 1
        omega

/-- With nothing pending there is nothing to drop. -/
theorem dropPending_of_nil
    {r : Ramp}
    (h : r.pending = []) :
    r.dropPending = r := by
  unfold dropPending
  rw [← h]

theorem within_of_isResting
    {r : Ramp}
    (h : r.isResting = true)
    (n : Nat) :
    r.within n = r := by
  have hnil : r.pending = [] := by
    unfold isResting at h
    simp at h
    exact h.1
  unfold within fromSample
  rw [hnil, List.map_nil, ← hnil]

/-- After the frames of a block nothing is pending. -/
theorem pending_rendered
    {n : Nat} (r : Ramp)
    (h : 0 < n) :
    (next^[n] (r.within n)).pending = [] := by
  apply pending_iterate pending_next
  intro c hc
  obtain ⟨d, _, rfl⟩ := List.mem_map.1 hc
  simp only [localChange]
  omega

/-- Each sample is mixed with the value of the ramp at that sample. -/
theorem toList_overlay
    (mix : Float32 → Float32 → Float32)
    (r : Ramp) (block : Signal) :
    (r.overlay mix block).1.toList
      = List.zipWith mix block.toList (samples block.size (r.within block.size)) := by
  have hsignal := (traverse_eq mix (block.size - 1) block.toList 0 r #[]).1
  simpa [overlay, within] using hsignal

/-- Where the values of the ramp overwrite a block, they are what it holds. -/
theorem toList_overlay_overwrite (r : Ramp) (n : Nat) :
    (r.overlay (fun _ value => value) (Signal.constant n 0.0)).1.toList
      = samples n (r.within n) := by
  have hsize : (Signal.constant n 0.0).size = n := by
    simp [Signal.constant]
  rw [toList_overlay, hsize, ← List.map_uncurry_zip_eq_zipWith]
  exact List.map_snd_zip (by simp [hsize])

/-- A block of no length only drops what is pending; any other one takes its frames. -/
theorem overlay_snd
    (mix : Float32 → Float32 → Float32)
    {block : Signal}
    (r : Ramp)
    (h : 0 < block.size) :
    (r.overlay mix block).2 = next^[block.size] (r.within block.size) := by
  have hramp := (traverse_eq mix (block.size - 1) block.toList 0 r #[]).2
  have hempty : (next^[block.size] (r.within block.size)).pending = [] :=
    pending_rendered r h
  rw [Array.length_toList] at hramp
  show (traverse mix (block.size - 1) block.toList 0 r #[]).2.dropPending = _
  calc
    (traverse mix (block.size - 1) block.toList 0 r #[]).2.dropPending
        = ((traverse mix (block.size - 1) block.toList 0 r #[]).2.fromSample
            (block.size - 1) (0 + block.size)).dropPending := by
          rfl
    _ = (next^[block.size] (r.within block.size)).dropPending := by
          rw [hramp]
          rfl
    _ = next^[block.size] (r.within block.size) :=
          dropPending_of_nil hempty

/-- Frames at rest change nothing. -/
theorem iterate_next_of_isResting
    {r : Ramp}
    (h : r.isResting = true)
    (n : Nat) :
    next^[n] r = r :=
  Function.iterate_fixed (next_of_isResting h) n

/-- A rendered block: the values of its frames, and the ramp after them. -/
theorem render_eq
    {n : Nat} (r : Ramp)
    (h : 0 < n) :
    r.render n = ((samples n (r.within n)).toArray, next^[n] (r.within n)) := by
  unfold render
  split
  case isTrue hrest =>
    rw [within_of_isResting hrest, samples_of_isResting hrest,
      iterate_next_of_isResting hrest]
    simp [Signal.constant]
  case isFalse =>
    have hsize : (Signal.constant n 0.0).size = n := by
      simp [Signal.constant]
    have hramp := overlay_snd (fun _ value => value) r (hsize.symm ▸ h)
    rw [hsize] at hramp
    exact Prod.ext (Array.toList_inj.1 (toList_overlay_overwrite r n)) hramp

/-- Adding a ramp to a block and rendering it leave it the same. -/
theorem addOnto_snd
    (r : Ramp) {block : Signal}
    (h : 0 < block.size) :
    (r.addOnto block).2 = next^[block.size] (r.within block.size) := by
  unfold addOnto
  split
  case isTrue hrest =>
    rw [within_of_isResting hrest, iterate_next_of_isResting hrest]
  case isFalse => exact overlay_snd _ r h

/-- Adding the same value to every sample. -/
theorem zipWith_add_replicate (xs : List Float32) (value : Float32) :
    List.zipWith (· + ·) xs (List.replicate xs.length value) = xs.map (· + value) := by
  induction xs with
  | nil => rfl
  | cons x xs ih => simp [List.replicate_succ, ih]

/--
A block with a ramp added to it: sample by sample the sums with the values of the
frames, up to the sign of zero where the ramp rests on it.
-/
theorem addOnto_fst (r : Ramp) (block : Signal) :
    List.Forall₂ Binary32.SameNumber (r.addOnto block).1.toList
      (List.zipWith (· + ·) block.toList (samples block.size (r.within block.size))) := by
  unfold addOnto
  split
  case isFalse =>
    rw [toList_overlay]
    exact List.forall₂_same.2 fun x _ => Binary32.SameNumber.refl x
  case isTrue hrest =>
    have hsum :
        List.zipWith (· + ·) block.toList (List.replicate block.size r.value)
          = block.toList.map (· + r.value) :=
      zipWith_add_replicate block.toList r.value
    rw [within_of_isResting hrest, samples_of_isResting hrest, hsum]
    dsimp only
    split
    case isTrue hzero =>
      rw [List.forall₂_map_right_iff]
      exact List.forall₂_same.2 fun x _ => (Binary32.sameNumber_add_zero x hzero).symm
    case isFalse =>
      simp only [Signal.shift, Array.toList_map]
      exact List.forall₂_same.2 fun x _ => Binary32.SameNumber.refl x

end Rendering

end Ramp
end Polyphony
