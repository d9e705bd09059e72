/-!
# Decimal digits

The natural number that a run of ASCII digits denotes.
-/

namespace InlineExpect.Text

/-- The value of an ASCII digit. -/
def digitValue (c : Char) : Nat := c.toNat - '0'.toNat

/-- The number that some digits denote, leading zeros allowed. -/
def digitsValue (cs : List Char) : Nat := cs.foldl (fun n c => 10 * n + digitValue c) 0

/-- Reads a text that consists of one or more ASCII digits and nothing else. -/
def natOfDigits? (cs : List Char) : Option Nat :=
  if cs.isEmpty || !cs.all Char.isDigit then none else some (digitsValue cs)

theorem natOfDigits?_eq_some_iff {cs : List Char} {n : Nat} :
    natOfDigits? cs = some n ↔ cs ≠ [] ∧ (∀ c ∈ cs, c.isDigit = true) ∧ digitsValue cs = n := by
  cases cs with
  | nil => simp [natOfDigits?]
  | cons c cs =>
    simp only [natOfDigits?, List.isEmpty_cons, Bool.false_or, ne_eq, reduceCtorEq,
      not_false_eq_true, true_and]
    split
    · rename_i h
      simp only [Bool.not_eq_true', List.all_eq_false] at h
      simp only [reduceCtorEq, false_iff, not_and]
      intro hall
      obtain ⟨d, hd, hf⟩ := h
      exact absurd (hall d hd) hf
    · rename_i h
      simp only [Bool.not_eq_true', Bool.not_eq_false, List.all_eq_true] at h
      simp only [Option.some.injEq]
      exact ⟨fun e => ⟨h, e⟩, fun e => e.2⟩

end InlineExpect.Text
