import Polyphony.Binary32.Text

/-!
# The characters of a number's text

The text of a number is made of digits, a point and a minus, or it is one of the
words for what is no finite number.  So it can stand next to separators of any other
kind.

**Results.**
* `isDigit_of_mem_toString`: a whole number is written in digits alone.
* `isNumeral_of_mem_plainText`: the characters of any number's plain text.
-/

namespace Polyphony
namespace Binary32

section Characters

/-- The characters of which the texts of numbers are made. -/
def isNumeral (c : Char) : Bool :=
  c.isDigit || ['.', '-', 'N', 'a', 'i', 'n', 'f'].contains c

theorem isDigit_of_mem_toString
    {n : Nat} {c : Char}
    (h : c ∈ (toString n).toList) :
    c.isDigit = true := by
  rw [Nat.toString_eq_repr, Nat.toList_repr] at h
  exact Nat.isDigit_of_mem_toDigits (by decide) (by decide) h

theorem isNumeral_of_isDigit
    {c : Char}
    (h : c.isDigit = true) :
    isNumeral c = true := by
  rw [isNumeral, h, Bool.true_or]

theorem isNumeral_of_mem_signText
    {negative : Bool} {c : Char}
    (h : c ∈ (signText negative false).toList) :
    isNumeral c = true := by
  cases negative with
  | true =>
      rw [List.mem_singleton.1 h]
      rfl
  | false => cases h

theorem isNumeral_of_mem_positional
    {d : Nat} {p : Int} {c : Char}
    (h : c ∈ (positional d p).toList) :
    isNumeral c = true := by
  have hzero : ∀ n, c ∈ List.replicate n '0' → isNumeral c = true := by
    intro n hc
    rw [List.eq_of_mem_replicate hc]
    rfl
  have hdigit : c ∈ (toString d).toList → isNumeral c = true :=
    fun hc => isNumeral_of_isDigit (isDigit_of_mem_toString hc)
  have hpadded :
      ∀ n, c ∈ List.replicate n '0' ++ (toString d).toList → isNumeral c = true := by
    intro n hc
    rcases List.mem_append.1 hc with hc | hc
    · exact hzero n hc
    · exact hdigit hc
  rw [positional] at h
  split at h
  case isTrue =>
    rw [String.toList_append] at h
    rcases List.mem_append.1 h with hc | hc
    · exact hdigit hc
    · rw [zeros, String.toList_ofList] at hc
      exact hzero _ hc
  case isFalse =>
    simp only [String.toList_append, String.toList_ofList] at h
    rcases List.mem_append.1 h with hfront | hback
    · rcases List.mem_append.1 hfront with hwhole | hpoint
      · exact hpadded _ (List.mem_of_mem_take hwhole)
      · rw [List.mem_singleton.1 hpoint]
        rfl
    · exact hpadded _ (List.mem_of_mem_drop hback)

/-- The characters of a number's plain text, be it finite or not. -/
theorem isNumeral_of_mem_plainText
    {x : Float32} {c : Char}
    (h : c ∈ (plainText x).toList) :
    isNumeral c = true := by
  have hsigned :
      ∀ {negative : Bool} {text : String}, text.toList.all isNumeral = true →
        c ∈ (signText negative false ++ text).toList → isNumeral c = true := by
    intro negative text htext hc
    rw [String.toList_append] at hc
    rcases List.mem_append.1 hc with hc | hc
    · exact isNumeral_of_mem_signText hc
    · exact List.all_eq_true.1 htext c hc
  rw [plainText] at h
  split at h
  · have hword : "NaN".toList.all isNumeral = true := by decide
    exact List.all_eq_true.1 hword c h
  · exact hsigned (by decide) h
  · exact hsigned (by decide) h
  · exact hsigned (List.all_eq_true.2 fun _ => isNumeral_of_mem_positional) h

end Characters

end Binary32
end Polyphony
