import Mathlib
import InlineExpect.Proofs.Comment.Grammar

/-!
# How far lexemes reach

Each function that measures a lexeme measures exactly what the grammar renders, whatever follows: a
word up to a character that is no word character, a string up to its closing quote, template text up
to its end or the next substitution, a regular expression up to the end of its flags, and comments
up to the end of the line or to a star and a slash.
-/

namespace InlineExpect.Comment

open Text

/-! ### Words and comments -/

/-- A word ends where a character follows that is no word character. -/
lemma wordLength_append {cs tail : List Char} (hcs : ∀ c ∈ cs, isWordPart c = true)
    (htail : ∀ c ∈ tail.head?, isWordPart c = false) : wordLength (cs ++ tail) = cs.length := by
  induction cs with
  | nil =>
    cases tail with
    | nil => rfl
    | cons d ds =>
      have hd : isWordPart d = false := htail d rfl
      rw [List.nil_append, wordLength, hd]
      rfl
  | cons c cs ih =>
    have hc : isWordPart c = true := hcs c List.mem_cons_self
    rw [List.cons_append, wordLength, hc, if_pos rfl,
      ih fun d hd => hcs d (List.mem_cons_of_mem c hd), List.length_cons, Nat.add_comm]

/-- A line ends before a line break, or with the text. -/
lemma lineLength_append {body tail : List Char} (hbody : ∀ d ∈ body, isLineBreak d = false)
    (htail : ∀ d ∈ tail.head?, isLineBreak d = true) : lineLength (body ++ tail) = body.length := by
  induction body with
  | nil =>
    cases tail with
    | nil => rfl
    | cons d ds =>
      rw [List.nil_append, lineLength, if_pos (htail d rfl)]
      rfl
  | cons d ds ih =>
    have hd : isLineBreak d = false := hbody d List.mem_cons_self
    rw [List.cons_append, lineLength, hd, if_neg Bool.false_ne_true,
      ih fun e he => hbody e (List.mem_cons_of_mem d he), List.length_cons, Nat.add_comm]

/-- A block comment ends at the first star and slash. -/
lemma blockLength_append {body : List Char} (tail : List Char) (h : ¬ ['*', '/'] <:+: body) :
    blockLength (body ++ '*' :: '/' :: tail) = (body.length, true) := by
  induction body with
  | nil => rfl
  | cons c cs ih =>
    have hcs : ¬ ['*', '/'] <:+: cs := fun hcs => h (hcs.trans (List.suffix_cons c cs).isInfix)
    have hne : ∀ rest, c :: (cs ++ '*' :: '/' :: tail) ≠ '*' :: '/' :: rest := by
      intro rest he
      obtain ⟨rfl, hrest⟩ := List.cons.inj he
      cases cs with
      | nil => exact absurd (List.cons.inj hrest).1 (by decide)
      | cons d ds =>
        obtain ⟨rfl, -⟩ := List.cons.inj hrest
        exact h (List.prefix_append ['*', '/'] ds).isInfix
    rw [List.cons_append, blockLength, ih hcs]
    · simp [Nat.add_comm]
    · exact fun rest hc hrest => hne rest (by rw [hc, hrest])

/-! ### Strings -/

section Quoted

variable {quote : Char}

/-- A string ends with its quote. -/
lemma quotedLength_quote (quote : Char) (tail : List Char) :
    quotedLength quote (quote :: tail) = 1 := by
  rw [quotedLength.eq_def]
  exact if_pos rfl

/-- A string goes on after a character that stands for itself. -/
lemma quotedLength_plain {c : Char} (h : (QuotedItem.piece (.plain c)).WellFormed quote)
    (cs : List Char) : quotedLength quote (c :: cs) = 1 + quotedLength quote cs := by
  obtain ⟨hquote, hslash, hbreak⟩ := h
  rw [quotedLength.eq_def]
  dsimp only
  rw [if_neg hquote, if_neg hslash, hbreak, if_neg Bool.false_ne_true]

/-- A string goes on after an escaped line break of two characters. -/
lemma quotedLength_continuation (hquote : '\\' ≠ quote) (cs : List Char) :
    quotedLength quote ('\\' :: '\r' :: '\n' :: cs) = 3 + quotedLength quote cs := by
  rw [quotedLength.eq_def]
  dsimp only
  rw [if_neg hquote, if_pos rfl]
  rfl

/-- A string goes on after an escaped character, unless it is the first of a line break of two
characters. -/
lemma quotedLength_escaped (hquote : '\\' ≠ quote) (c : Char) {cs : List Char}
    (hcs : cs.head? ≠ some '\n') :
    quotedLength quote ('\\' :: c :: cs) = 2 + quotedLength quote cs := by
  rw [quotedLength.eq_def]
  dsimp only
  rw [if_neg hquote, if_pos rfl]
  split
  · rename_i heq
    simp at heq
  · rename_i rest heq
    obtain ⟨-, rfl⟩ := List.cons.inj heq
    exact absurd rfl hcs
  · rename_i d rest _ heq
    obtain ⟨-, rfl⟩ := List.cons.inj heq
    rfl

/-- The rest of a string does not begin with a line feed. -/
lemma head?_quoted_ne {items : List QuotedItem} (tail : List Char)
    (hquote : quote = '\x27' ∨ quote = '\x22') (h : ∀ i ∈ items, i.WellFormed quote) :
    (items.flatMap QuotedItem.render ++ quote :: tail).head? ≠ some '\n' := by
  intro he
  match items with
  | [] =>
    obtain rfl : quote = '\n' := Option.some.inj he
    revert hquote
    decide
  | .piece (.plain c) :: items =>
    obtain rfl : c = '\n' := Option.some.inj he
    have hbreak : isLineBreak '\n' = false := (h _ List.mem_cons_self).2.2
    exact absurd hbreak (by decide)
  | .piece (.escaped c) :: items => exact absurd (Option.some.inj he) (by decide)
  | .continuation :: items => exact absurd (Option.some.inj he) (by decide)

/-- A string ends at its closing quote. -/
lemma quotedLength_append {items : List QuotedItem} (tail : List Char)
    (hquote : quote = '\x27' ∨ quote = '\x22') (h : ∀ i ∈ items, i.WellFormed quote) :
    quotedLength quote (items.flatMap QuotedItem.render ++ quote :: tail) =
      (items.flatMap QuotedItem.render).length + 1 := by
  have hslash : '\\' ≠ quote := by
    rcases hquote with rfl | rfl <;> decide
  induction items with
  | nil => exact quotedLength_quote quote tail
  | cons i items ih =>
    have hrest : ∀ j ∈ items, j.WellFormed quote := fun j hj => h j (List.mem_cons_of_mem i hj)
    have ih := ih hrest
    have hi := h i List.mem_cons_self
    rw [List.flatMap_cons, List.append_assoc, List.length_append]
    match i with
    | .piece (.plain c) =>
      have hlen : (QuotedItem.piece (.plain c)).render.length = 1 := rfl
      rw [hlen, Nat.add_assoc, ← ih]
      exact quotedLength_plain hi _
    | .piece (.escaped c) =>
      have hlen : (QuotedItem.piece (.escaped c)).render.length = 2 := rfl
      rw [hlen, Nat.add_assoc, ← ih]
      exact quotedLength_escaped hslash c (head?_quoted_ne tail hquote hrest)
    | .continuation =>
      have hlen : QuotedItem.continuation.render.length = 3 := rfl
      rw [hlen, Nat.add_assoc, ← ih]
      exact quotedLength_continuation hslash _

end Quoted

/-! ### Template text -/

/-- The rest of a chunk is a chunk. -/
lemma IsChunk.tail {p : Piece} {ps : List Piece} (h : IsChunk (p :: ps)) : IsChunk ps :=
  ⟨fun q hq => h.text q (List.mem_cons_of_mem p hq), h.no_opening.tail⟩

/-- What follows a dollar sign in template text does not begin with a brace. -/
lemma IsChunk.head?_ne {ps : List Piece} {tail : List Char} (h : IsChunk (.plain '$' :: ps))
    (htail : tail.head? ≠ some '\x7b') : (renderPieces ps ++ tail).head? ≠ some '\x7b' := by
  match ps with
  | [] => exact htail
  | .plain c :: ps =>
    intro he
    obtain rfl : c = '\x7b' := Option.some.inj he
    exact (List.isChain_cons_cons.mp h.no_opening).1 ⟨rfl, rfl⟩
  | .escaped c :: ps =>
    intro he
    exact absurd (Option.some.inj he) (by decide)

/-- Template text goes on after a character that stands for itself. -/
lemma templateChunk_plain {c : Char} (h : (Piece.plain c).IsTemplateText) (cs : List Char)
    (hcs : c = '$' → cs.head? ≠ some '\x7b') :
    templateChunk (c :: cs) = (1 + (templateChunk cs).1, (templateChunk cs).2) := by
  obtain ⟨hquote, hslash⟩ := h
  rw [templateChunk.eq_def]
  dsimp only
  rw [if_neg hquote, if_neg hslash]
  by_cases hdollar : c = '$'
  · rw [if_pos hdollar]
    split
    · exact absurd rfl (hcs hdollar)
    · rfl
  · rw [if_neg hdollar]

/-- Template text goes on after an escaped character. -/
lemma templateChunk_escaped (c : Char) (cs : List Char) :
    templateChunk ('\\' :: c :: cs) = (2 + (templateChunk cs).1, (templateChunk cs).2) := by
  rw [templateChunk.eq_def]
  dsimp only
  rw [if_neg (by decide), if_neg (by decide), if_pos rfl]

/-- A chunk ends with what follows it. -/
lemma templateChunk_append {ps : List Piece} {tail : List Char} (h : IsChunk ps)
    (htail : tail.head? ≠ some '\x7b') : templateChunk (renderPieces ps ++ tail) =
      ((renderPieces ps).length + (templateChunk tail).1, (templateChunk tail).2) := by
  induction ps with
  | nil => rw [renderPieces, List.flatMap_nil, List.nil_append, List.length_nil, Nat.zero_add]
  | cons p ps ih =>
    have ih := ih h.tail
    have hrender : renderPieces (p :: ps) = p.render ++ renderPieces ps := List.flatMap_cons
    rw [hrender, List.append_assoc, List.length_append, Nat.add_assoc]
    match p with
    | .plain c =>
      have hstep := templateChunk_plain (h.text _ List.mem_cons_self) (renderPieces ps ++ tail)
        fun hc => (hc ▸ h).head?_ne htail
      rw [ih] at hstep
      exact hstep
    | .escaped c =>
      have hstep := templateChunk_escaped c (renderPieces ps ++ tail)
      rw [ih] at hstep
      exact hstep

/-- A chunk is closed by a backquote. -/
lemma templateChunk_closed {ps : List Piece} (h : IsChunk ps) (tail : List Char) :
    templateChunk (renderPieces ps ++ '\x60' :: tail) =
      ((renderPieces ps).length + 1, .closed) := by
  have htail : ('\x60' :: tail).head? ≠ some '\x7b' := by simp
  have hend : templateChunk ('\x60' :: tail) = (1, .closed) := by
    rw [templateChunk.eq_def]
    exact if_pos rfl
  rw [templateChunk_append h htail, hend]

/-- A chunk is followed by a substitution. -/
lemma templateChunk_substitution {ps : List Piece} (h : IsChunk ps) (tail : List Char) :
    templateChunk (renderPieces ps ++ '$' :: '\x7b' :: tail) =
      ((renderPieces ps).length + 2, .substitution) := by
  have htail : ('$' :: '\x7b' :: tail).head? ≠ some '\x7b' := by simp
  have hend : templateChunk ('$' :: '\x7b' :: tail) = (2, .substitution) := by
    rw [templateChunk.eq_def]
    dsimp only
    rw [if_neg (by decide), if_pos rfl]
    rfl
  rw [templateChunk_append h htail, hend]

/-! ### Regular expressions -/

section Regex

variable {inClass : Bool} {c : Char}

/-- A bracket opens a character class. -/
lemma regexLength_open (cs : List Char) :
    regexLength inClass ('[' :: cs) = 1 + regexLength true cs := by
  rw [regexLength.eq_def]
  dsimp only
  rw [if_neg (by decide), if_neg (by decide), if_pos rfl]

/-- A bracket closes a character class. -/
lemma regexLength_close (cs : List Char) :
    regexLength inClass (']' :: cs) = 1 + regexLength false cs := by
  rw [regexLength.eq_def]
  dsimp only
  rw [if_neg (by decide), if_neg (by decide), if_neg (by decide), if_pos rfl]

/-- A slash outside of classes ends a regular expression, with the flags that follow. -/
lemma regexLength_slash (cs : List Char) : regexLength false ('/' :: cs) = 1 + wordLength cs := by
  rw [regexLength.eq_def]
  dsimp only
  rw [if_neg (by decide), if_neg (by decide), if_neg (by decide), if_neg (by decide),
    if_pos (by decide)]

/-- A regular expression goes on after an escaped character. -/
lemma regexLength_escaped (hc : isLineBreak c = false) (cs : List Char) :
    regexLength inClass ('\\' :: c :: cs) = 2 + regexLength inClass cs := by
  rw [regexLength.eq_def]
  dsimp only
  rw [if_neg (by decide), if_pos rfl, hc, if_neg Bool.false_ne_true]

/-- A regular expression goes on after a character outside of classes. -/
lemma regexLength_atom (h : RegexItem.IsAtom (.plain c)) (cs : List Char) :
    regexLength false (c :: cs) = 1 + regexLength false cs := by
  obtain ⟨hbreak, hbackslash, hopen, hslash⟩ := h
  rw [regexLength.eq_def]
  dsimp only
  rw [hbreak, if_neg Bool.false_ne_true, if_neg hbackslash, if_neg hopen]
  by_cases hclose : c = ']'
  · rw [if_pos hclose]
  · rw [if_neg hclose, if_neg (by simpa using hslash)]

/-- A character class goes on after a character in it. -/
lemma regexLength_classMember (h : RegexItem.IsClassMember (.plain c)) (cs : List Char) :
    regexLength true (c :: cs) = 1 + regexLength true cs := by
  obtain ⟨hbreak, hbackslash, hclose⟩ := h
  rw [regexLength.eq_def]
  dsimp only
  rw [hbreak, if_neg Bool.false_ne_true, if_neg hbackslash]
  by_cases hopen : c = '['
  · rw [if_pos hopen]
  · rw [if_neg hopen, if_neg hclose, if_neg (by simp)]

/-- A character class ends at its closing bracket. -/
lemma regexLength_class {ps : List Piece} (h : ∀ p ∈ ps, RegexItem.IsClassMember p)
    (cs : List Char) : regexLength true (renderPieces ps ++ ']' :: cs) =
      (renderPieces ps).length + 1 + regexLength false cs := by
  induction ps with
  | nil =>
    rw [renderPieces, List.flatMap_nil, List.nil_append, List.length_nil, Nat.zero_add,
      regexLength_close]
  | cons p ps ih =>
    have ih := ih fun q hq => h q (List.mem_cons_of_mem p hq)
    have hp := h p List.mem_cons_self
    have hrender : renderPieces (p :: ps) = p.render ++ renderPieces ps := List.flatMap_cons
    rw [hrender, List.append_assoc, List.length_append]
    match p with
    | .plain c =>
      have hstep := regexLength_classMember hp (renderPieces ps ++ ']' :: cs)
      rw [ih] at hstep
      refine hstep.trans ?_
      change _ = 1 + (renderPieces ps).length + 1 + _
      omega
    | .escaped c =>
      have hstep : regexLength true ('\\' :: c :: (renderPieces ps ++ ']' :: cs)) = _ :=
        regexLength_escaped hp _
      rw [ih] at hstep
      refine hstep.trans ?_
      change _ = 2 + (renderPieces ps).length + 1 + _
      omega

/-- A regular expression goes on after an item. -/
lemma regexLength_item {i : RegexItem} (h : i.WellFormed) (cs : List Char) :
    regexLength false (i.render ++ cs) = i.render.length + regexLength false cs := by
  match i with
  | .piece (.plain c) => exact regexLength_atom h cs
  | .piece (.escaped c) => exact regexLength_escaped h cs
  | .charClass ps =>
    have hrender : (RegexItem.charClass ps).render ++ cs =
        '[' :: (renderPieces ps ++ ']' :: cs) := by
      rw [RegexItem.render, List.cons_append, List.append_assoc]
      rfl
    rw [hrender, regexLength_open, regexLength_class h, RegexItem.render, List.length_cons,
      List.length_append]
    change _ = (renderPieces ps).length + 1 + 1 + _
    omega

/-- A regular expression ends with its flags. -/
lemma regexLength_append {items : List RegexItem} {flags tail : List Char}
    (hitems : ∀ i ∈ items, i.WellFormed) (hflags : ∀ c ∈ flags, isWordPart c = true)
    (htail : ∀ c ∈ tail.head?, isWordPart c = false) :
    regexLength false (items.flatMap RegexItem.render ++ '/' :: (flags ++ tail)) =
      (items.flatMap RegexItem.render).length + 1 + flags.length := by
  induction items with
  | nil =>
    rw [List.flatMap_nil, List.nil_append, regexLength_slash, wordLength_append hflags htail,
      List.length_nil, Nat.zero_add]
  | cons i items ih =>
    rw [List.flatMap_cons, List.append_assoc, regexLength_item (hitems i List.mem_cons_self),
      ih fun j hj => hitems j (List.mem_cons_of_mem i hj), List.length_append]
    omega

end Regex

end InlineExpect.Comment
