import Mathlib.Algebra.GroupWithZero.Nat
import Mathlib.Data.List.Induction
import Polyphony.Recording.Basic

/-!
# What a recording holds

A recording begins without frames and grows block by block.  Each of its planes is
then made of the beginnings of the same plane of all those blocks.

**Results.**
* `getElem?_extend`: what one block puts behind each plane.
* `holds_of_appendAll?`: the planes of a recording after several blocks.
* `Holds.stream?_eq`, `Holds.frames_eq`: its streams, and their common length.
-/

namespace Polyphony
namespace Recording

section Growing

variable {r : Recording} {block : Buffer} {n i voices : Nat} {blocks : List (Buffer × Nat)}

/-- The recording with the first frames of several blocks put behind, if all blocks fit. -/
def appendAll? (r : Recording) (blocks : List (Buffer × Nat)) : Option Recording :=
  blocks.foldlM (fun r (block, n) => r.append? block n) r

/-- The first frames of a plane of several blocks, one after the other. -/
def recorded (blocks : List (Buffer × Nat)) (plane : Nat) : List Float32 :=
  blocks.flatMap fun (block, n) =>
    (block.plane? plane).elim [] fun signal => signal.toList.take n

theorem appendAll?_concat (r : Recording) (blocks : List (Buffer × Nat)) (block : Buffer) (n : Nat) :
    r.appendAll? (blocks ++ [(block, n)])
      = (r.appendAll? blocks).bind fun r => r.append? block n := by
  rw [appendAll?, List.foldlM_append]
  simp [appendAll?]

/-- Behind each plane a block puts the first frames of its own. -/
theorem getElem?_extend (block : Buffer) (n : Nat) (planes : List Signal) :
    ∀ i j, (extend block n i planes)[j]?
      = planes[j]?.map fun plane =>
          plane ++ block.samples.extract (block.planeStart (i + j)) (block.planeStart (i + j) + n) := by
  induction planes with
  | nil =>
      intro i j
      rfl
  | cons plane planes ih =>
      intro i j
      cases j with
      | zero => rfl
      | succ j =>
          rw [extend, List.getElem?_cons_succ, ih, List.getElem?_cons_succ, Nat.add_right_comm i 1 j]
          rfl

/-- A block that fits has every plane of the recording, with enough frames. -/
theorem Fits.exists_plane
    (h : r.Fits block n)
    (hi : i < r.planes.length) :
    ∃ signal, block.plane? i = some signal
      ∧ n ≤ signal.size
      ∧ (block.samples.extract (block.planeStart i) (block.planeStart i + n)).toList
        = signal.toList.take n := by
  obtain ⟨hcontains, hn⟩ := h i hi
  refine ⟨_, if_pos hcontains, ?_, ?_⟩
  · rw [Buffer.Contains] at hcontains
    rw [Array.size_extract]
    omega
  · rw [Array.toList_extract, Array.toList_extract, List.extract_eq_take_drop,
      List.extract_eq_take_drop, List.take_take]
    congr 1
    omega

/-- A recording holds the first frames of several blocks, as many from each of their planes. -/
structure Holds (r : Recording) (voices : Nat) (blocks : List (Buffer × Nat)) : Prop where
  voices_eq : r.voices = voices
  length_eq : r.planes.length = voices * streamCount
  plane : ∀ i < r.planes.length, ∃ signal : Signal,
    r.planes[i]? = some signal ∧ signal.toList = recorded blocks i
  length_recorded : ∀ i < r.planes.length,
    (recorded blocks i).length = (blocks.map Prod.snd).sum

theorem holds_empty (voices : Nat) (sampleRate : Float32) :
    (empty voices sampleRate).Holds voices [] where
  voices_eq := rfl
  length_eq := List.length_replicate
  plane := by
    intro i hi
    have hi' : i < voices * streamCount := by
      simpa [empty] using hi
    exact ⟨#[], by simp [empty, hi'], rfl⟩
  length_recorded := fun _ _ => rfl

/-- With one more block behind it, a recording holds that one as well. -/
theorem Holds.append
    (h : r.Holds voices blocks)
    (hfits : r.Fits block n) :
    (r.append block n).Holds voices (blocks ++ [(block, n)]) := by
  have hlength : (r.append block n).planes.length = r.planes.length :=
    length_extend block n r.planes 0
  constructor
  · exact h.voices_eq
  · rw [hlength, h.length_eq]
  · intro i hi
    rw [hlength] at hi
    obtain ⟨before, hbefore, hrecorded⟩ := h.plane i hi
    obtain ⟨signal, hsignal, -, hextract⟩ := hfits.exists_plane hi
    refine ⟨before ++ block.samples.extract (block.planeStart i) (block.planeStart i + n), ?_, ?_⟩
    · rw [Recording.append, getElem?_extend, hbefore, Option.map_some, Nat.zero_add]
    · rw [Array.toList_append, hrecorded, hextract]
      simp [recorded, hsignal]
  · intro i hi
    rw [hlength] at hi
    obtain ⟨signal, hsignal, hn, -⟩ := hfits.exists_plane hi
    have hold := h.length_recorded i hi
    simp only [recorded] at hold ⊢
    simp [hold, hsignal, hn]

/-- After several blocks that fit, a recording holds them all. -/
theorem holds_of_appendAll?
    {sampleRate : Float32}
    (happended : (empty voices sampleRate).appendAll? blocks = some r) :
    r.Holds voices blocks := by
  induction blocks using List.reverseRecOn generalizing r with
  | nil =>
      obtain rfl := Option.some.inj happended
      exact holds_empty voices sampleRate
  | append_singleton blocks last ih =>
      obtain ⟨block, n⟩ := last
      rw [appendAll?_concat, Option.bind_eq_some_iff] at happended
      obtain ⟨before, hbefore, happend⟩ := happended
      rw [append?] at happend
      split at happend
      case isTrue hfits =>
        obtain rfl := Option.some.inj happend
        exact (ih hbefore).append hfits
      case isFalse => cases happend

theorem Holds.planeOf_lt
    (h : r.Holds voices blocks)
    {voice : Nat}
    (hvoice : voice < voices)
    (s : Stream) :
    Buffer.planeOf voice s < r.planes.length := by
  have hs := s.index_lt
  have hmul : (voice + 1) * streamCount ≤ voices * streamCount := Nat.mul_le_mul_right _ hvoice
  rw [h.length_eq, Buffer.planeOf]
  rw [Nat.add_mul] at hmul
  omega

/-- A stream of a recording is made of the beginnings of that stream in the blocks. -/
theorem Holds.stream?_eq
    (h : r.Holds voices blocks)
    {voice : Nat}
    (hvoice : voice < voices)
    (s : Stream) :
    ∃ signal, r.stream? voice s = some signal
      ∧ signal.toList = recorded blocks (Buffer.planeOf voice s) :=
  h.plane _ (h.planeOf_lt hvoice s)

/-- A recording of at least one voice has all frames that were put behind it. -/
theorem Holds.frames_eq
    (h : r.Holds voices blocks) :
    r.frames = if voices = 0 then 0 else (blocks.map Prod.snd).sum := by
  rw [frames]
  by_cases hzero : voices = 0
  · have hnil : r.planes = [] := by
      rw [← List.length_eq_zero_iff, h.length_eq, hzero, Nat.zero_mul]
    rw [hnil, if_pos hzero]
    rfl
  · have hfirst : 0 < r.planes.length := by
      rw [h.length_eq]
      exact Nat.mul_pos (Nat.pos_of_ne_zero hzero) (by decide)
    obtain ⟨signal, hsignal, hrecorded⟩ := h.plane 0 hfirst
    rw [List.head?_eq_getElem?, hsignal, if_neg hzero, ← h.length_recorded 0 hfirst, ← hrecorded]
    rfl

end Growing

end Recording
end Polyphony
