import InlineExpect.Text.WordRanges

/-!
# Word characters

The characters that continue a name or a number: letters and digits of any script, the low line
and the dollar sign.
-/

namespace InlineExpect.Text

/-- Whether a character is alphabetic or numeric. -/
def isAlphanumeric (c : Char) : Bool :=
  if c.val < 0x80 then c.isAlphanum
  else wordRanges.any fun r => r.1 ≤ c.toNat && c.toNat ≤ r.2

/-- Whether a character can continue a name or a number. -/
def isWordPart (c : Char) : Bool := isAlphanumeric c || c == '_' || c == '$'

/-- The number of word characters at the start of a text. -/
def wordLength : List Char → Nat
  | [] => 0
  | c :: cs => if isWordPart c then 1 + wordLength cs else 0

theorem isWordPart_of_isAlphanum {c : Char} (h : c.isAlphanum = true) : isWordPart c = true := by
  have hc : c.val < 0x80 := by
    change (decide (c.val ≥ 65 ∧ c.val ≤ 90) || (decide (c.val ≥ 97) && decide (c.val ≤ 122)) ||
      (decide (c.val ≥ 48) && decide (c.val ≤ 57))) = true at h
    simp only [Bool.or_eq_true, Bool.and_eq_true, decide_eq_true_eq] at h
    rcases h with (⟨_, h⟩ | ⟨_, h⟩) | ⟨_, h⟩ <;> exact Nat.lt_of_le_of_lt h (by decide)
  simp [isWordPart, isAlphanumeric, hc, h]

/-- All characters that `wordLength` counts are word characters. -/
theorem isWordPart_of_mem_take_wordLength {c : Char} {cs : List Char}
    (h : c ∈ cs.take (wordLength cs)) : isWordPart c = true := by
  induction cs with
  | nil => simp [wordLength] at h
  | cons d ds ih =>
    unfold wordLength at h
    split at h
    · rename_i hd
      rw [Nat.add_comm, List.take_succ_cons, List.mem_cons] at h
      rcases h with rfl | h
      · exact hd
      · exact ih h
    · simp at h

end InlineExpect.Text
