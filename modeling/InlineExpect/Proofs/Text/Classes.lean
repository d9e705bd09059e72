import Mathlib
import InlineExpect.Text.Blank
import InlineExpect.Text.LineBreak
import InlineExpect.Text.Word

/-!
# Disjoint character classes

The scanner asks for one class of characters after the other, so that a word character is taken for
one only if it is in no class before.  Line breaks and blanks are no word characters.  The word
characters beyond ASCII are given by ranges, and what lies in a gap between two of them is none.
-/

namespace InlineExpect.Text

/-- A character beyond ASCII in a gap between the ranges is no word character. -/
lemma isWordPart_eq_false_of_gap {c : Char} (a b : Nat) (ha : 0x80 ≤ a)
    (hgap : (wordRanges.all fun r => r.2 < a || b < r.1) = true) (hca : a ≤ c.toNat)
    (hcb : c.toNat ≤ b) : isWordPart c = false := by
  have hascii : ¬ c.val < 0x80 := by
    intro h
    have hlt : c.toNat < 0x80 := h
    omega
  have hranges : (wordRanges.any fun r => r.1 ≤ c.toNat && c.toNat ≤ r.2) = false := by
    rw [List.any_eq_false]
    intro r hr
    have := List.all_eq_true.mp hgap r hr
    simp only [Bool.or_eq_true, Bool.and_eq_true, decide_eq_true_eq] at this ⊢
    omega
  have hne : ∀ d : Char, d.toNat < 0x80 → (c == d) = false := by
    intro d hd
    rw [beq_eq_false_iff_ne]
    rintro rfl
    omega
  rw [isWordPart, isAlphanumeric, if_neg hascii, hranges, hne '_' (by decide), hne '$' (by decide)]
  rfl

/-- A character with no range for itself is no word character. -/
lemma isWordPart_eq_false_of_not_mem {c : Char} (hc : 0x80 ≤ c.toNat)
    (hgap : (wordRanges.all fun r => r.2 < c.toNat || c.toNat < r.1) = true) :
    isWordPart c = false :=
  isWordPart_eq_false_of_gap c.toNat c.toNat hc hgap le_rfl le_rfl

/-- The general punctuation is no range of word characters. -/
lemma isWordPart_of_generalPunctuation {c : Char} (hlo : 0x2000 ≤ c.toNat)
    (hhi : c.toNat ≤ 0x206f) : isWordPart c = false :=
  isWordPart_eq_false_of_gap 0x2000 0x206f (by decide) (by decide +kernel) hlo hhi

/-- A line break is no word character. -/
theorem isWordPart_of_isLineBreak {c : Char} (h : isLineBreak c = true) :
    isWordPart c = false := by
  simp only [isLineBreak, Bool.or_eq_true, beq_iff_eq] at h
  rcases h with ((rfl | rfl) | rfl) | rfl
  · decide
  · decide
  · exact isWordPart_of_generalPunctuation (by decide) (by decide)
  · exact isWordPart_of_generalPunctuation (by decide) (by decide)

/-- A blank is no word character. -/
theorem isWordPart_of_isInlineBlank {c : Char} (h : isInlineBlank c = true) :
    isWordPart c = false := by
  simp only [isInlineBlank, Bool.or_eq_true, Bool.and_eq_true, beq_iff_eq,
    decide_eq_true_eq] at h
  rcases h with
    (((((((((rfl | rfl) | rfl) | rfl) | rfl) | rfl) | ⟨hlo, hhi⟩) | rfl) | rfl) | rfl) | rfl
  · decide
  · decide
  · decide
  · decide
  · exact isWordPart_eq_false_of_not_mem (by decide) (by decide +kernel)
  · exact isWordPart_eq_false_of_not_mem (by decide) (by decide +kernel)
  · have hle : c.toNat ≤ 0x200a := hhi
    exact isWordPart_of_generalPunctuation hlo (by omega)
  · exact isWordPart_of_generalPunctuation (by decide) (by decide)
  · exact isWordPart_of_generalPunctuation (by decide) (by decide)
  · exact isWordPart_eq_false_of_not_mem (by decide) (by decide +kernel)
  · exact isWordPart_eq_false_of_not_mem (by decide) (by decide +kernel)

/-- A blank is no line break. -/
theorem isLineBreak_of_isInlineBlank {c : Char} (h : isInlineBlank c = true) :
    isLineBreak c = false := by
  rw [← Bool.not_eq_true]
  intro hbreak
  simp only [isLineBreak, Bool.or_eq_true, beq_iff_eq] at hbreak
  rcases hbreak with ((rfl | rfl) | rfl) | rfl <;> exact absurd h (by decide)

end InlineExpect.Text
