import Mathlib
import InlineExpect.Proofs.Comment.FirstOnLine

/-!
# One character of lookahead

What the scanner takes at once is decided by the characters that it takes and the one behind them.
For each function that measures a piece of a text this means that a text that begins with the same
characters, and goes on with the same one, has the same piece.  Where a piece ends with the text,
there is no character behind it, and then the other text ends there too.

`Lexeme.recurs_ofText` puts them together for lexemes.
-/

namespace InlineExpect.Comment

open Text

variable {c : Char} {cs cs' : List Char} {n : Nat}

/-! ### Texts that begin alike -/

/-- A text that begins as a text without characters has none. -/
lemma eq_nil_of_take_eq (h : [].take (n + 1) = cs'.take (n + 1)) : cs' = [] := by
  cases cs' with
  | nil => rfl
  | cons d ds => cases h

/-- A text that begins as another one has the same first character, and goes on as the other one
does. -/
lemma exists_cons_of_take_eq (h : (c :: cs).take (n + 1) = cs'.take (n + 1)) :
    ∃ ds, cs' = c :: ds ∧ cs.take n = ds.take n := by
  cases cs' with
  | nil => cases h
  | cons d ds =>
    rw [List.take_succ_cons, List.take_succ_cons] at h
    obtain ⟨rfl, htail⟩ := List.cons.inj h
    exact ⟨ds, rfl, htail⟩

/-- Texts that begin alike have the same first character, if they have one. -/
lemma head?_eq_of_take_eq (h : cs.take (n + 1) = cs'.take (n + 1)) : cs'.head? = cs.head? := by
  cases cs with
  | nil => rw [eq_nil_of_take_eq h]
  | cons c cs =>
    obtain ⟨ds, rfl, -⟩ := exists_cons_of_take_eq h
    rfl

/-! ### The pieces of a text -/

/-- Where a line ends is decided by its line break. -/
lemma lineLength_eq_of_take_eq (h : cs.take (lineLength cs + 1) = cs'.take (lineLength cs + 1)) :
    lineLength cs' = lineLength cs := by
  induction cs generalizing cs' with
  | nil => rw [eq_nil_of_take_eq h]
  | cons c cs ih =>
    obtain ⟨ds, rfl, hds⟩ := exists_cons_of_take_eq h
    rw [lineLength] at h hds ⊢
    rw [lineLength]
    by_cases hc : isLineBreak c = true
    · rw [if_pos hc, if_pos hc]
    · rw [if_neg hc, Nat.add_comm] at hds
      rw [if_neg hc, if_neg hc, ih hds]

/-- Where a word ends is decided by the character behind it. -/
lemma wordLength_eq_of_take_eq (h : cs.take (wordLength cs + 1) = cs'.take (wordLength cs + 1)) :
    wordLength cs' = wordLength cs := by
  induction cs generalizing cs' with
  | nil => rw [eq_nil_of_take_eq h]
  | cons c cs ih =>
    obtain ⟨ds, rfl, hds⟩ := exists_cons_of_take_eq h
    rw [wordLength] at h hds ⊢
    rw [wordLength]
    by_cases hc : isWordPart c = true
    · rw [if_pos hc, Nat.add_comm] at hds
      rw [if_pos hc, if_pos hc, ih hds]
    · rw [if_neg hc, if_neg hc]

/-- Where a string ends is decided by its quote, or by the line break behind it. -/
lemma quotedLength_eq_of_take_eq {quote : Char}
    (h : cs.take (quotedLength quote cs + 1) = cs'.take (quotedLength quote cs + 1)) :
    quotedLength quote cs' = quotedLength quote cs := by
  fun_induction quotedLength quote cs generalizing cs' with
  | case1 => rw [eq_nil_of_take_eq h, quotedLength]
  | case2 cs =>
    obtain ⟨ds, rfl, -⟩ := exists_cons_of_take_eq h
    exact quotedLength_quote quote ds
  | case3 hne =>
    obtain ⟨ds, rfl, h₁⟩ := exists_cons_of_take_eq h
    rw [eq_nil_of_take_eq h₁, quotedLength.eq_def]
    dsimp only
    rw [if_neg hne, if_pos rfl]
  | case4 rest hne ih =>
    rw [show 3 + quotedLength quote rest = quotedLength quote rest + 1 + 1 + 1 by omega] at h
    obtain ⟨ds, rfl, h₁⟩ := exists_cons_of_take_eq h
    obtain ⟨ds, rfl, h₂⟩ := exists_cons_of_take_eq h₁
    obtain ⟨ds, rfl, h₃⟩ := exists_cons_of_take_eq h₂
    rw [quotedLength_continuation hne, ih h₃]
  | case5 c rest hcrlf hne ih =>
    rw [show 2 + quotedLength quote rest = quotedLength quote rest + 1 + 1 by omega] at h
    obtain ⟨ds, rfl, h₁⟩ := exists_cons_of_take_eq h
    obtain ⟨ds, rfl, h₂⟩ := exists_cons_of_take_eq h₁
    have hhead : ds.head? = rest.head? := head?_eq_of_take_eq h₂
    rw [quotedLength.eq_def]
    dsimp only
    rw [if_neg hne, if_pos rfl]
    split
    · rename_i heq
      cases heq
    · rename_i more heq
      obtain ⟨rfl, rfl⟩ := List.cons.inj heq
      obtain ⟨more', rfl⟩ := List.head?_eq_some_iff.mp hhead.symm
      exact absurd rfl (hcrlf more' rfl)
    · rename_i d more _ heq
      obtain ⟨-, rfl⟩ := List.cons.inj heq
      rw [ih h₂]
  | case6 c cs hne hslash hbreak =>
    obtain ⟨ds, rfl, -⟩ := exists_cons_of_take_eq h
    rw [quotedLength.eq_def]
    dsimp only
    rw [if_neg hne, if_neg hslash, if_pos hbreak]
  | case7 c cs hne hslash hbreak ih =>
    rw [Nat.add_comm 1] at h
    obtain ⟨ds, rfl, h₁⟩ := exists_cons_of_take_eq h
    rw [quotedLength_plain ⟨hne, hslash, Bool.eq_false_iff.mpr hbreak⟩, ih h₁]

/-- How a chunk of template text ends is decided by its delimiter, or by the end of the text. -/
lemma templateChunk_eq_of_take_eq
    (h : cs.take ((templateChunk cs).1 + 1) = cs'.take ((templateChunk cs).1 + 1)) :
    templateChunk cs' = templateChunk cs := by
  fun_induction templateChunk cs generalizing cs' with
  | case1 => rw [eq_nil_of_take_eq h, templateChunk]
  | case2 cs =>
    obtain ⟨ds, rfl, -⟩ := exists_cons_of_take_eq h
    rw [templateChunk.eq_def]
    exact if_pos rfl
  | case3 cs hne =>
    obtain ⟨ds, rfl, h₁⟩ := exists_cons_of_take_eq h
    obtain ⟨ds, rfl, -⟩ := exists_cons_of_take_eq h₁
    rw [templateChunk.eq_def]
    dsimp only
    rw [if_neg hne, if_pos rfl]
    rfl
  | case4 rest hopen n ending hrest hne ih =>
    rw [hrest] at ih
    rw [Nat.add_comm 1] at h
    obtain ⟨ds, rfl, h₁⟩ := exists_cons_of_take_eq h
    have hhead : ds.head? ≠ some '\x7b' := by
      intro hbrace
      rw [head?_eq_of_take_eq h₁] at hbrace
      obtain ⟨more, hmore⟩ := List.head?_eq_some_iff.mp hbrace
      exact hopen more hmore
    rw [templateChunk_plain ⟨by decide, by decide⟩ ds fun _ => hhead, ih h₁]
  | case5 hne hdollar =>
    obtain ⟨ds, rfl, h₁⟩ := exists_cons_of_take_eq h
    rw [eq_nil_of_take_eq h₁, templateChunk.eq_def]
    rfl
  | case6 c rest n ending hrest hne hdollar ih =>
    rw [hrest] at ih
    rw [show 2 + n = n + 1 + 1 by omega] at h
    obtain ⟨ds, rfl, h₁⟩ := exists_cons_of_take_eq h
    obtain ⟨ds, rfl, h₂⟩ := exists_cons_of_take_eq h₁
    rw [templateChunk_escaped, ih h₂]
  | case7 c cs hquote hdollar hslash n ending hcs ih =>
    rw [hcs] at ih
    rw [Nat.add_comm 1] at h
    obtain ⟨ds, rfl, h₁⟩ := exists_cons_of_take_eq h
    rw [templateChunk_plain ⟨hquote, hslash⟩ ds fun hc => absurd hc hdollar, ih h₁]

/-- Where a regular expression ends is decided by what follows its flags, or by the line break
behind it. -/
lemma regexLength_eq_of_take_eq {inClass : Bool}
    (h : cs.take (regexLength inClass cs + 1) = cs'.take (regexLength inClass cs + 1)) :
    regexLength inClass cs' = regexLength inClass cs := by
  fun_induction regexLength inClass cs generalizing cs' with
  | case1 => rw [eq_nil_of_take_eq h, regexLength]
  | case2 inClass c cs hbreak =>
    obtain ⟨ds, rfl, -⟩ := exists_cons_of_take_eq h
    rw [regexLength.eq_def]
    exact if_pos hbreak
  | case3 inClass hc =>
    obtain ⟨ds, rfl, h₁⟩ := exists_cons_of_take_eq h
    rw [eq_nil_of_take_eq h₁, regexLength.eq_def]
    dsimp only
    rw [if_neg hc, if_pos rfl]
  | case4 inClass d rest hbreak hc =>
    obtain ⟨ds, rfl, h₁⟩ := exists_cons_of_take_eq h
    obtain ⟨ds, rfl, -⟩ := exists_cons_of_take_eq h₁
    rw [regexLength.eq_def]
    dsimp only
    rw [if_neg hc, if_pos rfl, if_pos hbreak]
  | case5 inClass d rest hbreak hc ih =>
    rw [show 2 + regexLength inClass rest = regexLength inClass rest + 1 + 1 by omega] at h
    obtain ⟨ds, rfl, h₁⟩ := exists_cons_of_take_eq h
    obtain ⟨ds, rfl, h₂⟩ := exists_cons_of_take_eq h₁
    rw [regexLength_escaped (Bool.eq_false_iff.mpr hbreak), ih h₂]
  | case6 inClass rest hc hslash ih =>
    rw [Nat.add_comm 1] at h
    obtain ⟨ds, rfl, h₁⟩ := exists_cons_of_take_eq h
    rw [regexLength_open, ih h₁]
  | case7 inClass rest hc hslash hopen ih =>
    rw [Nat.add_comm 1] at h
    obtain ⟨ds, rfl, h₁⟩ := exists_cons_of_take_eq h
    rw [regexLength_close, ih h₁]
  | case8 inClass c rest hc hslash hopen hclose hend =>
    rw [Nat.add_comm 1] at h
    obtain ⟨ds, rfl, h₁⟩ := exists_cons_of_take_eq h
    obtain ⟨rfl, rfl⟩ : c = '/' ∧ inClass = false := by simpa using hend
    rw [regexLength_slash, wordLength_eq_of_take_eq h₁]
  | case9 inClass c rest hc hslash hopen hclose hend ih =>
    rw [Nat.add_comm 1] at h
    obtain ⟨ds, rfl, h₁⟩ := exists_cons_of_take_eq h
    rw [regexLength.eq_def]
    dsimp only
    rw [if_neg hc, if_neg hslash, if_neg hopen, if_neg hclose, if_neg hend, ih h₁]

/-- Where a block comment ends is decided by its star and slash, or by the end of the text. -/
lemma blockLength_eq_of_take_eq
    (h : cs.take ((blockLength cs).1 + (if (blockLength cs).2 then 2 else 0) + 1) =
      cs'.take ((blockLength cs).1 + (if (blockLength cs).2 then 2 else 0) + 1)) :
    blockLength cs' = blockLength cs := by
  fun_induction blockLength cs generalizing cs' with
  | case1 => rw [eq_nil_of_take_eq h, blockLength]
  | case2 rest =>
    obtain ⟨ds, rfl, h₁⟩ := exists_cons_of_take_eq h
    obtain ⟨ds, rfl, -⟩ := exists_cons_of_take_eq h₁
    rfl
  | case3 c cs hne n closed hcs ih =>
    rw [hcs] at ih
    dsimp only at h
    rw [show 1 + n + (if closed then 2 else 0) = n + (if closed then 2 else 0) + 1 by omega] at h
    obtain ⟨ds, rfl, h₁⟩ := exists_cons_of_take_eq h
    have hhead : ds.head? = cs.head? := head?_eq_of_take_eq h₁
    have hne' : ∀ more, c = '*' → ds = '/' :: more → False := by
      rintro more rfl rfl
      obtain ⟨more', rfl⟩ := List.head?_eq_some_iff.mp hhead.symm
      exact hne more' rfl rfl
    rw [blockLength.eq_3 _ _ hne', ih h₁]

/-- Texts that begin alike begin alike with fewer characters. -/
lemma take_eq_of_take_eq {k : Nat} (hk : k ≤ n) (h : cs.take n = cs'.take n) :
    cs'.take k = cs.take k := by
  have hfront := congrArg (List.take k) h
  rw [List.take_take, List.take_take, Nat.min_eq_left hk] at hfront
  exact hfront.symm

/-- The interpreter line is decided by its characters and the two behind them. -/
lemma shebangLength_eq_of_take_eq
    (h : cs.take (shebangLength cs + 2) = cs'.take (shebangLength cs + 2)) :
    shebangLength cs' = shebangLength cs := by
  by_cases hshebang : ['#', '!'] <+: cs
  · obtain ⟨line, rfl⟩ := hshebang
    have hlength : shebangLength ('#' :: '!' :: line) = lineLength line + 1 + 1 :=
      Nat.add_comm 2 _
    rw [List.cons_append, List.cons_append, List.nil_append, hlength] at h
    obtain ⟨ds, rfl, h₁⟩ := exists_cons_of_take_eq h
    obtain ⟨ds, rfl, h₂⟩ := exists_cons_of_take_eq h₁
    have hline := lineLength_eq_of_take_eq (take_eq_of_take_eq (Nat.le_succ _) h₂).symm
    exact congrArg (2 + ·) hline
  · rw [shebangLength_eq_zero hshebang] at h ⊢
    apply shebangLength_eq_zero
    intro hshebang'
    apply hshebang
    rw [List.prefix_iff_eq_take] at hshebang' ⊢
    exact hshebang'.trans h.symm

/-! ### Lexemes -/

namespace Lexeme

variable {σ : Type} {allowed : Bool} {nesting : σ}

/-- What is read from a text is read again from a text that begins with the same characters and goes
on with the same one. -/
def Recurs (cs cs' : List Char) (x x' : Lexeme σ) : Prop :=
  cs.take (x.extra + 1) = cs'.take (x.extra + 1) → x' = x

/-- A choice between two lexemes recurs if both of them do. -/
lemma recurs_ite {p : Prop} [Decidable p] {x x' y y' : Lexeme σ} (hx : Recurs cs cs' x x')
    (hy : Recurs cs cs' y y') : Recurs cs cs' (if p then x else y) (if p then x' else y') := by
  by_cases hp : p
  · rwa [if_pos hp, if_pos hp]
  · rwa [if_neg hp, if_neg hp]

/-- A lexeme that does not look at the text recurs. -/
lemma recurs_refl (x : Lexeme σ) : Recurs cs cs' x x := fun _ => rfl

/-- What begins with a slash recurs. -/
lemma recurs_slash :
    Recurs cs cs' (slash allowed nesting cs) (slash allowed nesting cs') := by
  intro h
  have hhead : cs'.head? = cs.head? := head?_eq_of_take_eq h
  by_cases hline : cs.head? = some '/'
  · obtain ⟨rest, rfl⟩ := List.head?_eq_some_iff.mp hline
    rw [slash_line, Nat.add_comm 1] at h
    obtain ⟨ds, rfl, h₁⟩ := exists_cons_of_take_eq h
    rw [slash_line, slash_line, lineLength_eq_of_take_eq h₁,
      take_eq_of_take_eq (Nat.le_succ _) h₁]
  by_cases hblock : cs.head? = some '*'
  · obtain ⟨rest, rfl⟩ := List.head?_eq_some_iff.mp hblock
    rw [slash_block, Nat.add_assoc 1, Nat.add_comm 1] at h
    obtain ⟨ds, rfl, h₁⟩ := exists_cons_of_take_eq h
    rw [slash_block, slash_block, blockLength_eq_of_take_eq h₁,
      take_eq_of_take_eq (Nat.le_succ_of_le (Nat.le_add_right _ _)) h₁]
  have hcode : ∀ d ∈ cs.head?, d ≠ '/' ∧ d ≠ '*' := ne_of_head?_ne hline hblock
  have hcode' : ∀ d ∈ cs'.head?, d ≠ '/' ∧ d ≠ '*' := by rwa [hhead]
  cases allowed with
  | true =>
    rw [slash_regex hcode] at h ⊢
    rw [slash_regex hcode', regexLength_eq_of_take_eq h]
  | false => rw [slash_division hcode, slash_division hcode']

/-- A string recurs. -/
lemma recurs_quoted (quote : Char) : Recurs cs cs'
    (⟨.code, quotedLength quote cs, allowed, nesting⟩ : Lexeme σ)
    ⟨.code, quotedLength quote cs', allowed, nesting⟩ := by
  intro h
  rw [quotedLength_eq_of_take_eq h]

/-- A word recurs. -/
lemma recurs_word : Recurs cs cs' (word nesting c cs) (word nesting c cs') := by
  intro h
  have hlength : wordLength cs' = wordLength cs := wordLength_eq_of_take_eq h
  have hword : cs'.take (wordLength cs) = cs.take (wordLength cs) :=
    take_eq_of_take_eq (Nat.le_succ _) h
  rw [word, word, hlength, hword]

variable [Nesting σ]

/-- Template text recurs. -/
lemma recurs_template :
    Recurs cs cs' (template allowed nesting cs) (template allowed nesting cs') := by
  intro h
  have hextra : (template allowed nesting cs).extra = (templateChunk cs).1 := by
    unfold template
    rcases templateChunk cs with ⟨n, _ | _ | _⟩ <;> rfl
  rw [hextra] at h
  rw [template, templateChunk_eq_of_take_eq h, template]

/-- A closing brace recurs. -/
lemma recurs_closeBrace :
    Recurs cs cs' (closeBrace allowed nesting cs) (closeBrace allowed nesting cs') := by
  unfold closeBrace
  rcases Nesting.close nesting with ⟨outer, _ | _⟩
  · exact recurs_refl _
  · exact recurs_template

/-- The first lexeme of a text recurs. -/
theorem recurs_ofText :
    Recurs cs cs' (ofText allowed nesting c cs) (ofText allowed nesting c cs') := by
  intro h
  have hhead : cs'.head? = cs.head? := head?_eq_of_take_eq h
  revert h
  unfold ofText
  rw [hhead]
  apply recurs_ite (recurs_refl _)
  apply recurs_ite (recurs_refl _)
  apply recurs_ite recurs_slash
  apply recurs_ite (recurs_quoted c)
  apply recurs_ite recurs_template
  apply recurs_ite (recurs_refl _)
  apply recurs_ite recurs_closeBrace
  apply recurs_ite (recurs_refl _)
  apply recurs_ite (recurs_refl _)
  apply recurs_ite (recurs_refl _)
  exact recurs_ite recurs_word (recurs_refl _)

end Lexeme

end InlineExpect.Comment
