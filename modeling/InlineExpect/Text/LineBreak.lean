/-!
# Line breaks and inline blanks

The two character classes by which the comment scanner lays out a text: the characters that end a
line, and the blanks that may stand inside one.
-/

namespace InlineExpect.Text

/-- The characters that end a line: LF, CR, LINE SEPARATOR and PARAGRAPH SEPARATOR. -/
def isLineBreak (c : Char) : Bool :=
  c == '\n' || c == '\r' || c == '\u2028' || c == '\u2029'

/-- The blanks that leave a line without content: space, tab, vertical tab, form feed, the space
separators and the zero width no-break space. -/
def isInlineBlank (c : Char) : Bool :=
  c == ' ' || c == '\t' || c == '\x0b' || c == '\x0c' || c == '\u00a0' || c == '\u1680' ||
    ('\u2000' ≤ c && c ≤ '\u200a') || c == '\u202f' || c == '\u205f' || c == '\u3000' ||
    c == '\ufeff'

/-- The number of characters before the first line break. -/
def lineLength : List Char → Nat
  | [] => 0
  | c :: cs => if isLineBreak c then 0 else 1 + lineLength cs

/-- No character before the end of the line is a line break. -/
theorem isLineBreak_of_mem_take_lineLength {c : Char} {cs : List Char}
    (h : c ∈ cs.take (lineLength cs)) : isLineBreak c = false := by
  induction cs with
  | nil => simp [lineLength] at h
  | cons d ds ih =>
    unfold lineLength at h
    split at h
    · simp at h
    · rename_i hd
      rw [Nat.add_comm, List.take_succ_cons, List.mem_cons] at h
      rcases h with rfl | h
      · simpa using hd
      · exact ih h

end InlineExpect.Text
