import Polyphony.Proofs.Ramp.Frames

/-!
# Adding a ramp to a block

A ramp may be rendered into a block of its own or added to one that holds a signal
already.  Both ways go through the samples with the same ramp, and differ only in
what they do with its value, so the second is the first with one addition for each
sample.  Only a ramp that rests on zero is not added at all.

**Results.**
* `overlay_snd_congr`: what is in a block makes no difference to the ramp.
* `add_overlay`: adding a ramp that moves is adding the signal that it renders.
* `addOnto_eq_add_render`: adding a ramp, compared with rendering it.
-/

namespace Polyphony

/-- Adding a signal of one value shifts every sample by that value. -/
theorem Signal.add_constant (s : Signal) (value : Float32) :
    s.add (constant s.size value) = s.shift value := by
  apply Array.ext
  · simp [add, constant, shift]
  · intro i _ _
    simp [add, constant, shift]

namespace Ramp

section Adding

/-- The ramp after a block depends on the length of the block, not on what is in it. -/
theorem traverse_snd_congr
    (mix mix' : Float32 → Float32 → Float32)
    (last : Nat)
    {block other : List Float32}
    (h : block.length = other.length) :
    ∀ (i : Nat) (r : Ramp) (done done' : Signal),
      (traverse mix last block i r done).2 = (traverse mix' last other i r done').2 := by
  induction block generalizing other with
  | nil =>
      intro i r done done'
      rw [List.eq_nil_of_length_eq_zero h.symm]
      rfl
  | cons x xs ih =>
      obtain ⟨y, ys, rfl⟩ := List.exists_cons_of_length_eq_add_one h.symm
      intro i r done done'
      exact ih (Nat.succ.inj h) (i + 1) (r.advance last i) _ _

theorem overlay_snd_congr
    (mix mix' : Float32 → Float32 → Float32)
    {block other : Signal}
    (r : Ramp)
    (h : block.size = other.size) :
    (r.overlay mix block).2 = (r.overlay mix' other).2 := by
  have hlength : block.toList.length = other.toList.length := by
    simpa using h
  have hramp := traverse_snd_congr mix mix' (block.size - 1) hlength 0 r #[] #[]
  show (traverse mix (block.size - 1) block.toList 0 r #[]).2.dropPending
    = (traverse mix' (other.size - 1) other.toList 0 r #[]).2.dropPending
  rw [← h, hramp]

/-- Adding a ramp that moves is adding the signal that it renders. -/
theorem add_overlay (r : Ramp) (block : Signal) :
    block.add (r.overlay (fun _ value => value) (Signal.constant block.size 0.0)).1
      = (r.overlay (· + ·) block).1 := by
  apply Array.toList_inj.1
  rw [toList_overlay, Signal.add, Array.toList_zipWith, toList_overlay_overwrite]

/--
Adding a ramp to a block, whatever is pending and whatever the block holds, leaves
the ramp as rendering a block of that length does.  To every sample it adds the one
that would have been rendered, except that a ramp at rest on zero leaves the block
as it is.
-/
theorem addOnto_eq_add_render (r : Ramp) (block : Signal) :
    (r.addOnto block).2 = (r.render block.size).2
      ∧ (r.render block.size).1.size = block.size
      ∧ (r.addOnto block).1
          = if r.isResting = true ∧ (r.value == 0.0) = true then block
            else block.add (r.render block.size).1 := by
  refine ⟨?_, size_render r block.size, ?_⟩
  · cases hrest : r.isResting with
    | true => simp [addOnto, render, hrest]
    | false =>
        simp only [addOnto, render, hrest, Bool.false_eq_true, if_false]
        exact overlay_snd_congr _ _ r (by simp [Signal.constant])
  · cases hrest : r.isResting with
    | true => simp [addOnto, render, hrest, Signal.add_constant]
    | false => simp [addOnto, render, hrest, add_overlay]

end Adding

end Ramp
end Polyphony
