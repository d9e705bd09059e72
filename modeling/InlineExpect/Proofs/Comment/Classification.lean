import Mathlib
import InlineExpect.Proofs.Comment.Grammar
import InlineExpect.Proofs.Text.Classes

/-!
# What lexemes are taken for

The scanner decides by the first character of a lexeme what it is, and asks for one class of
characters after the other.  Here the answer is given for each class that the grammar knows of, so
that the order of the questions does not matter any more.
-/

namespace InlineExpect.Comment

open Text

namespace Lexeme

variable {σ : Type} {allowed : Bool} {nesting : σ} {c : Char} {cs : List Char}

/-! ### Slashes -/

/-- Two slashes begin a comment up to the end of the line. -/
lemma slash_line (rest : List Char) : slash allowed nesting ('/' :: rest) =
    ⟨.comment .line (rest.take (lineLength rest)), 1 + lineLength rest, allowed, nesting⟩ := rfl

/-- A slash and a star begin a block comment. -/
lemma slash_block (rest : List Char) : slash allowed nesting ('*' :: rest) =
    ⟨.comment (.block (blockLength rest).2) (rest.take (blockLength rest).1),
      1 + (blockLength rest).1 + (if (blockLength rest).2 then 2 else 0), allowed, nesting⟩ := rfl

/-- A text that goes on neither with a slash nor with a star begins no comment behind a slash. -/
lemma ne_of_head?_ne (hslash : cs.head? ≠ some '/') (hstar : cs.head? ≠ some '*') :
    ∀ d ∈ cs.head?, d ≠ '/' ∧ d ≠ '*' := by
  intro d hd
  exact ⟨fun h => hslash (h ▸ hd), fun h => hstar (h ▸ hd)⟩

/-- A slash where a regular expression is allowed begins one. -/
lemma slash_regex (h : ∀ d ∈ cs.head?, d ≠ '/' ∧ d ≠ '*') :
    slash true nesting cs = ⟨.code, regexLength false cs, false, nesting⟩ := by
  unfold slash
  split
  · exact absurd rfl (h '/' rfl).1
  · exact absurd rfl (h '*' rfl).2
  · rfl

/-- A slash where no regular expression is allowed is a division. -/
lemma slash_division (h : ∀ d ∈ cs.head?, d ≠ '/' ∧ d ≠ '*') :
    slash false nesting cs = ⟨.code, 0, true, nesting⟩ := by
  unfold slash
  split
  · exact absurd rfl (h '/' rfl).1
  · exact absurd rfl (h '*' rfl).2
  · rfl

/-! ### Other first characters -/

variable [Nesting σ]

/-- A line break is a lexeme. -/
lemma ofText_lineBreak (h : isLineBreak c = true) :
    ofText allowed nesting c cs = ⟨.lineBreak, 0, allowed, nesting⟩ := by
  unfold ofText
  rw [if_pos h]

/-- A blank is a lexeme. -/
lemma ofText_blank (h : isInlineBlank c = true) :
    ofText allowed nesting c cs = ⟨.blank, 0, allowed, nesting⟩ := by
  unfold ofText
  rw [isLineBreak_of_isInlineBlank h, if_neg Bool.false_ne_true, if_pos h]

/-- A quote begins a string. -/
lemma ofText_quote (h : c = '\x27' ∨ c = '\x22') :
    ofText allowed nesting c cs = ⟨.code, quotedLength c cs, false, nesting⟩ := by
  unfold ofText
  rcases h with rfl | rfl
  · rw [if_neg (by decide), if_neg (by decide), if_neg (by decide), if_pos (by decide)]
  · rw [if_neg (by decide), if_neg (by decide), if_neg (by decide), if_pos (by decide)]

/-- A backquote begins template text. -/
lemma ofText_backquote : ofText allowed nesting '\x60' cs = template allowed nesting cs := by
  unfold ofText
  rw [if_neg (by decide), if_neg (by decide), if_neg (by decide), if_neg (by decide), if_pos rfl]

/-- An opening brace begins a group. -/
lemma ofText_openBrace :
    ofText allowed nesting '\x7b' cs = ⟨.code, 0, true, Nesting.openGroup nesting⟩ := by
  unfold ofText
  rw [if_neg (by decide), if_neg (by decide), if_neg (by decide), if_neg (by decide),
    if_neg (by decide), if_pos rfl]

/-- A closing brace ends what was opened last. -/
lemma ofText_closeBrace : ofText allowed nesting '\x7d' cs = closeBrace allowed nesting cs := by
  unfold ofText
  rw [if_neg (by decide), if_neg (by decide), if_neg (by decide), if_neg (by decide),
    if_neg (by decide), if_neg (by decide), if_pos rfl]

/-- What neither lays out the text nor delimits anything is a bracket, an operator, a word or
stands for itself. -/
lemma ofText_other (hbreak : isLineBreak c = false) (hblank : isInlineBlank c = false)
    (hc : c ∉ ['/', '\x27', '\x22', '\x60', '\x7b', '\x7d']) :
    ofText allowed nesting c cs =
      if c = ')' || c = ']' then ⟨.code, 0, false, nesting⟩
      else if c = '!' && cs.head? != some '=' then ⟨.code, 0, allowed, nesting⟩
      else if (c = '+' || c = '-') && cs.head? == some c then ⟨.code, 1, allowed, nesting⟩
      else if isWordPart c then word nesting c cs
      else ⟨.code, 0, true, nesting⟩ := by
  simp only [List.mem_cons, List.not_mem_nil, or_false, not_or] at hc
  obtain ⟨hslash, hquote, hdouble, hback, hopen, hclose⟩ := hc
  unfold ofText
  rw [hbreak, if_neg Bool.false_ne_true, hblank, if_neg Bool.false_ne_true, if_neg hslash,
    if_neg (by simp [hquote, hdouble]), if_neg hback, if_neg hopen, if_neg hclose]

/-- A word character begins a word. -/
lemma ofText_word (h : isWordPart c = true) :
    ofText allowed nesting c cs = word nesting c cs := by
  have hne : ∀ d, isWordPart d = false → c ≠ d := by
    rintro d hd rfl
    exact Bool.noConfusion (h.symm.trans hd)
  have hbreak : isLineBreak c = false := by
    rw [← Bool.not_eq_true]
    intro hb
    exact hne c (isWordPart_of_isLineBreak hb) rfl
  have hblank : isInlineBlank c = false := by
    rw [← Bool.not_eq_true]
    intro hb
    exact hne c (isWordPart_of_isInlineBlank hb) rfl
  have hother : c ∉ ['/', '\x27', '\x22', '\x60', '\x7b', '\x7d'] := by
    simp only [List.mem_cons, List.not_mem_nil, or_false, not_or]
    exact ⟨hne _ (by decide), hne _ (by decide), hne _ (by decide), hne _ (by decide),
      hne _ (by decide), hne _ (by decide)⟩
  rw [ofText_other hbreak hblank hother]
  rw [if_neg (by simp [hne ')' (by decide), hne ']' (by decide)]),
    if_neg (by simp [hne '!' (by decide)]),
    if_neg (by simp [hne '+' (by decide), hne '-' (by decide)]), if_pos h]

/-- A sign that is written twice is one lexeme. -/
lemma ofText_double (h : c = '+' ∨ c = '-') :
    ofText allowed nesting c (c :: cs) = ⟨.code, 1, allowed, nesting⟩ := by
  rcases h with rfl | rfl
  · rw [ofText_other (by decide) (by decide) (by decide), if_neg (by decide), if_neg (by simp),
      if_pos (by simp)]
  · rw [ofText_other (by decide) (by decide) (by decide), if_neg (by decide), if_neg (by simp),
      if_pos (by simp)]

/-- Punctuation is a lexeme.  An exclamation mark before an equals sign is the one case in which the
scanner looks further ahead than the grammar. -/
lemma ofText_punctuation (allowed : Bool) (nesting : σ) (h : IsPunctuation c)
    (hcs : ∀ d ∈ cs.head?, (Element.punctuation c).MayPrecede d) :
    ∃ after, ofText allowed nesting c cs = ⟨.code, 0, after, nesting⟩ ∧
      (after = (Element.punctuation c).regexAfter allowed ∨ cs.head? = some '=') := by
  obtain ⟨hword, hblank, hbreak, hother⟩ := h
  rw [ofText_other hbreak hblank hother]
  by_cases hclose : c = ')' ∨ c = ']'
  · refine ⟨false, by rw [if_pos (by simpa using hclose)], .inl ?_⟩
    rw [Element.regexAfter, if_pos hclose]
  rw [if_neg (by simpa using hclose)]
  by_cases hbang : c = '!'
  · by_cases heq : cs.head? = some '='
    · subst hbang
      refine ⟨true, ?_, .inr heq⟩
      rw [if_neg (by simp [heq]), if_neg (by simp), if_neg (by decide)]
    · refine ⟨allowed, by rw [if_pos (by simp [hbang, heq])], .inl ?_⟩
      rw [Element.regexAfter, if_neg hclose, if_pos hbang]
  · have hdouble : ((decide (c = '+') || decide (c = '-')) && cs.head? == some c) = false := by
      by_cases hsign : c = '+' ∨ c = '-'
      · have hne : cs.head? ≠ some c := fun he => hcs c he hsign rfl
        simp [hne]
      · simp only [not_or] at hsign
        simp [hsign]
    refine ⟨true, ?_, .inl ?_⟩
    · rw [if_neg (by simp [hbang]), hdouble, if_neg Bool.false_ne_true, hword,
        if_neg Bool.false_ne_true]
    · rw [Element.regexAfter, if_neg hclose, if_neg hbang]

/-- What an equals sign is taken for does not depend on what stands before it. -/
lemma ofText_equals : ofText allowed nesting '=' cs = ⟨.code, 0, true, nesting⟩ := by
  rw [ofText_other (by decide) (by decide) (by decide), if_neg (by decide), if_neg (by simp),
    if_neg (by simp), if_neg (by decide)]

end Lexeme

end InlineExpect.Comment
