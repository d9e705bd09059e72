import Mathlib
import InlineExpect.Proofs.Comment.Classification
import InlineExpect.Proofs.Comment.Lexemes
import InlineExpect.Proofs.Comment.Positions

/-!
# Scanning well-formed code

The scanner finds the comments that the grammar knows of, and nothing else.  A simultaneous
induction over elements, code and substitutions carries the state of the scanner through the text.

What makes the induction go through is that code leaves the open brackets as it has found them.  A
memory of brackets is asked for no more than that a closing brace undoes the last opening one
(`Nesting.Faithful`), which holds for a `DepthCounter` as long as no substitution was opened deeper
than its depth.
-/

namespace InlineExpect.Comment

open Text

/-! ### Faithful memories of brackets -/

/-- A memory of brackets is faithful in some states if these are closed under opening, and a closing
brace undoes the last opening one. -/
structure Nesting.Faithful {σ : Type} [Nesting σ] (P : σ → Prop) : Prop where
  none : P Nesting.none
  openGroup : ∀ n, P n → P (Nesting.openGroup n)
  openSubstitution : ∀ n, P n → P (Nesting.openSubstitution n)
  close_openGroup : ∀ n, P n → Nesting.close (Nesting.openGroup n) = (n, false)
  close_openSubstitution : ∀ n, P n → Nesting.close (Nesting.openSubstitution n) = (n, true)

namespace DepthCounter

/-- No open substitution is deeper than the open braces. -/
def Bounded (n : DepthCounter) : Prop := ∀ d ∈ n.substitutions, d ≤ n.depth

/-- A depth counter tells groups from substitutions, although it remembers only depths. -/
theorem faithful_bounded : Nesting.Faithful Bounded where
  none := by
    intro d hd
    exact absurd hd List.not_mem_nil
  openGroup n h d hd := Nat.le_succ_of_le (h d hd)
  openSubstitution n h d hd := by
    rcases List.mem_cons.mp hd with rfl | hd
    · exact le_rfl
    · exact Nat.le_succ_of_le (h d hd)
  close_openGroup n h := by
    obtain ⟨depth, substitutions⟩ := n
    cases substitutions with
    | nil => rfl
    | cons d ds =>
      have hle : d ≤ depth := h d List.mem_cons_self
      have hne : d ≠ depth + 1 := by omega
      exact if_neg hne
  close_openSubstitution n h := if_pos rfl

end DepthCounter

/-! ### Steps of the scanner -/

variable {σ : Type}

/-- The state of the scanner after an element. -/
def ScanState.past (s : ScanState σ) (e : Element) : ScanState σ :=
  ⟨s.pos + byteLength e.render, e.contentAfter s.lineHasContent, e.regexAfter s.regexAllowed,
    s.nesting⟩

/-- The state of the scanner after code. -/
def ScanState.pastCode (s : ScanState σ) : Code → ScanState σ
  | .nil => s
  | .cons e rest => (s.past e).pastCode rest

/-- Code leaves the open brackets as it has found them. -/
@[simp] theorem ScanState.nesting_pastCode (s : ScanState σ) (code : Code) :
    (s.pastCode code).nesting = s.nesting := by
  match code with
  | .nil => rfl
  | .cons e rest => exact nesting_pastCode (s.past e) rest

/-- Code takes as many bytes as it is written in. -/
theorem ScanState.pos_pastCode (s : ScanState σ) (code : Code) :
    (s.pastCode code).pos = s.pos + byteLength code.render := by
  match code with
  | .nil => rfl
  | .cons e rest =>
    rw [pastCode, pos_pastCode (s.past e) rest, Code.render, byteLength_append, ← Nat.add_assoc]
    rfl

variable [Nesting σ] {s : ScanState σ} {c : Char} {tail : List Char} {allowed : Bool} {nesting : σ}

/-- A lexeme of code is passed over. -/
lemma scanFrom_code (mid : List Char)
    (h : Lexeme.ofText s.regexAllowed s.nesting c (mid ++ tail) =
      ⟨.code, mid.length, allowed, nesting⟩) :
    scanFrom s (c :: (mid ++ tail)) =
      scanFrom ⟨s.pos + byteLength (c :: mid), true, allowed, nesting⟩ tail := by
  rw [scanFrom_cons, h, List.take_left, List.drop_left]
  rfl

/-- A lexeme that lays out the text is passed over. -/
lemma scanFrom_layout {kind : Lexeme.Kind} (hkind : kind = .lineBreak ∨ kind = .blank)
    (h : Lexeme.ofText s.regexAllowed s.nesting c tail = ⟨kind, 0, allowed, nesting⟩) :
    scanFrom s (c :: tail) =
      scanFrom ⟨s.pos + byteLength [c], ScanState.contentAfter s.lineHasContent kind, allowed,
        nesting⟩ tail := by
  rw [scanFrom_cons, h, List.take_zero, List.drop_zero]
  rcases hkind with rfl | rfl <;> rfl

/-- A comment is found. -/
lemma scanFrom_comment {form : Form} {body : List Char} (mid : List Char)
    (h : Lexeme.ofText s.regexAllowed s.nesting c (mid ++ tail) =
      ⟨.comment form body, mid.length, allowed, nesting⟩) :
    scanFrom s (c :: (mid ++ tail)) = ⟨form, s.pos, body, !s.lineHasContent⟩ ::
      scanFrom ⟨s.pos + byteLength (c :: mid), true, allowed, nesting⟩ tail := by
  rw [scanFrom_cons, h, List.take_left, List.drop_left]
  rfl

/-! ### Elements without code in them -/

/-- A word is scanned. -/
lemma scanFrom_word {cs : List Char} (hcs : ∀ d ∈ c :: cs, isWordPart d = true)
    (htail : ∀ d ∈ tail.head?, isWordPart d = false) :
    scanFrom s (c :: (cs ++ tail)) = scanFrom (s.past (.word c cs)) tail := by
  have hlen : wordLength (cs ++ tail) = cs.length :=
    wordLength_append (fun d hd => hcs d (List.mem_cons_of_mem c hd)) htail
  refine scanFrom_code cs ?_
  rw [Lexeme.ofText_word (hcs c List.mem_cons_self), Lexeme.word, hlen, List.take_left]
  rfl

/-- A sign that is written twice is scanned. -/
lemma scanFrom_double (hc : c = '+' ∨ c = '-') :
    scanFrom s (c :: c :: tail) = scanFrom (s.past (.double c)) tail :=
  scanFrom_code [c] (Lexeme.ofText_double hc)

/-- A division is scanned. -/
lemma scanFrom_division (hs : s.regexAllowed = false)
    (htail : ∀ d ∈ tail.head?, d ≠ '/' ∧ d ≠ '*') :
    scanFrom s ('/' :: tail) = scanFrom (s.past .division) tail := by
  refine scanFrom_code [] ?_
  rw [Lexeme.ofText_slash, hs]
  exact Lexeme.slash_division htail

/-- Punctuation is scanned. -/
lemma scanFrom_punctuation (hc : IsPunctuation c)
    (htail : ∀ d ∈ tail.head?, (Element.punctuation c).MayPrecede d) :
    scanFrom s (c :: tail) = scanFrom (s.past (.punctuation c)) tail := by
  obtain ⟨after, hof, hafter⟩ := Lexeme.ofText_punctuation s.regexAllowed s.nesting hc htail
  refine (scanFrom_code [] hof).trans ?_
  rcases hafter with rfl | hequals
  · rfl
  · -- Whether a regular expression is allowed does not matter before an equals sign.
    obtain ⟨rest, rfl⟩ : ∃ rest, tail = '=' :: rest := List.head?_eq_some_iff.mp hequals
    rw [scanFrom_cons, scanFrom_cons, Lexeme.ofText_equals, Lexeme.ofText_equals]
    rfl

/-- A string is scanned. -/
lemma scanFrom_quoted {items : List QuotedItem} (hc : c = '\x27' ∨ c = '\x22')
    (hitems : ∀ i ∈ items, i.WellFormed c) :
    scanFrom s (c :: (items.flatMap QuotedItem.render ++ c :: tail)) =
      scanFrom (s.past (.quoted c items)) tail := by
  have hlen := quotedLength_append tail hc hitems
  rw [List.append_cons] at hlen ⊢
  refine scanFrom_code _ ?_
  rw [Lexeme.ofText_quote hc, hlen, List.length_append]
  rfl

/-- A comment up to the end of the line, or of the text, is found. -/
lemma scanFrom_lineComment_of_end {body : List Char} (hbody : ∀ d ∈ body, isLineBreak d = false)
    (htail : ∀ d ∈ tail.head?, isLineBreak d = true) :
    scanFrom s ('/' :: '/' :: (body ++ tail)) = ⟨.line, s.pos, body, !s.lineHasContent⟩ ::
      scanFrom ⟨s.pos + byteLength ('/' :: '/' :: body), true, s.regexAllowed, s.nesting⟩ tail := by
  refine scanFrom_comment ('/' :: body) ?_
  rw [Lexeme.ofText_slash, List.cons_append, Lexeme.slash, lineLength_append hbody htail,
    List.take_left, List.length_cons, Nat.add_comm]

/-- A comment up to the end of its line is found, and its line break is passed over. -/
lemma scanFrom_lineComment {body : List Char} (hbody : ∀ d ∈ body, isLineBreak d = false)
    (hc : isLineBreak c = true) :
    scanFrom s ('/' :: '/' :: (body ++ c :: tail)) =
      ⟨.line, s.pos, body, !s.lineHasContent⟩ ::
        scanFrom (s.past (.lineComment body c)) tail := by
  have htail : ∀ d ∈ (c :: tail).head?, isLineBreak d = true := by
    intro d hd
    rwa [← Option.some.inj hd]
  rw [scanFrom_lineComment_of_end hbody htail,
    scanFrom_layout (.inl rfl) (Lexeme.ofText_lineBreak hc)]
  congr 2
  simp only [ScanState.past, Element.render, byteLength_cons, byteLength_append, Nat.add_assoc]
  rfl

/-- A block comment is found. -/
lemma scanFrom_blockComment {body : List Char} (hbody : ¬ ['*', '/'] <:+: body) :
    scanFrom s ('/' :: '*' :: (body ++ '*' :: '/' :: tail)) =
      ⟨.block true, s.pos, body, !s.lineHasContent⟩ ::
        scanFrom (s.past (.blockComment body)) tail := by
  have hlen := blockLength_append tail hbody
  have hof : Lexeme.ofText s.regexAllowed s.nesting '/'
      (('*' :: (body ++ ['*', '/'])) ++ tail) =
      ⟨.comment (.block true) body, ('*' :: (body ++ ['*', '/'])).length, s.regexAllowed,
        s.nesting⟩ := by
    have hextra : ('*' :: (body ++ ['*', '/'])).length = 1 + body.length + 2 := by
      rw [List.length_cons, List.length_append, Nat.add_comm, ← Nat.add_assoc]
      rfl
    rw [hextra, Lexeme.ofText_slash, List.cons_append, List.append_assoc, Lexeme.slash]
    simp only [List.cons_append, List.nil_append, hlen, List.take_left, if_true]
  have hsplit : '/' :: '*' :: (body ++ '*' :: '/' :: tail) =
      '/' :: (('*' :: (body ++ ['*', '/'])) ++ tail) := by simp
  rw [hsplit, scanFrom_comment _ hof]
  rfl

/-- The first character of an item of a regular expression is neither a slash nor, unless the item
is a star, a star. -/
lemma RegexItem.head?_render {i : RegexItem} (hi : i.WellFormed)
    (hstar : i ≠ .piece (.plain '*')) (cs : List Char) :
    ∀ d ∈ (i.render ++ cs).head?, d ≠ '/' ∧ d ≠ '*' := by
  intro d hd
  match i with
  | .piece (.plain c) =>
    obtain rfl : c = d := Option.some.inj hd
    refine ⟨hi.2.2.2, ?_⟩
    rintro rfl
    exact hstar rfl
  | .piece (.escaped c) =>
    obtain rfl : '\\' = d := Option.some.inj hd
    decide
  | .charClass ps =>
    obtain rfl : '[' = d := Option.some.inj hd
    decide

/-- A regular expression is scanned. -/
lemma scanFrom_regex {items : List RegexItem} {flags : List Char} (hs : s.regexAllowed = true)
    (hne : items ≠ []) (hstar : items.head? ≠ some (.piece (.plain '*')))
    (hitems : ∀ i ∈ items, i.WellFormed) (hflags : ∀ d ∈ flags, isWordPart d = true)
    (htail : ∀ d ∈ tail.head?, isWordPart d = false) :
    scanFrom s ('/' :: (items.flatMap RegexItem.render ++ '/' :: (flags ++ tail))) =
      scanFrom (s.past (.regex items flags)) tail := by
  have hlen := regexLength_append hitems hflags htail
  have hhead : ∀ d ∈ (items.flatMap RegexItem.render ++ '/' :: (flags ++ tail)).head?,
      d ≠ '/' ∧ d ≠ '*' := by
    obtain ⟨i, items, rfl⟩ := List.exists_cons_of_ne_nil hne
    rw [List.flatMap_cons, List.append_assoc]
    exact RegexItem.head?_render (hitems i List.mem_cons_self) (fun hi => hstar (by rw [hi]; rfl)) _
  have hsplit : items.flatMap RegexItem.render ++ '/' :: (flags ++ tail) =
      (items.flatMap RegexItem.render ++ '/' :: flags) ++ tail := by
    rw [List.append_assoc]
    rfl
  rw [hsplit] at hlen hhead ⊢
  refine scanFrom_code _ ?_
  rw [Lexeme.ofText_slash, hs, Lexeme.slash_regex hhead, hlen, List.length_append,
    List.length_cons, Nat.add_assoc, Nat.add_comm 1]
  rfl

/-! ### Elements with code in them -/

/-- Template text up to the end of its template is scanned. -/
lemma scanFrom_closed {chunk : List Piece} (hchunk : IsChunk chunk)
    (hof : ∀ cs, Lexeme.ofText s.regexAllowed s.nesting c cs =
      Lexeme.template s.regexAllowed nesting cs) :
    scanFrom s (c :: (renderPieces chunk ++ '\x60' :: tail)) =
      scanFrom ⟨s.pos + byteLength (c :: (renderPieces chunk ++ ['\x60'])), true, false, nesting⟩
        tail := by
  have hlen := templateChunk_closed hchunk tail
  rw [List.append_cons] at hlen ⊢
  refine scanFrom_code _ ?_
  rw [hof, Lexeme.template, hlen, List.length_append]
  rfl

/-- Template text up to a substitution is scanned, and the substitution is open. -/
lemma scanFrom_substitution {chunk : List Piece} (hchunk : IsChunk chunk)
    (hof : ∀ cs, Lexeme.ofText s.regexAllowed s.nesting c cs =
      Lexeme.template s.regexAllowed nesting cs) :
    scanFrom s (c :: (renderPieces chunk ++ '$' :: '\x7b' :: tail)) =
      scanFrom ⟨s.pos + byteLength (c :: (renderPieces chunk ++ ['$', '\x7b'])), true, true,
        Nesting.openSubstitution nesting⟩ tail := by
  have hlen := templateChunk_substitution hchunk tail
  have hsplit : renderPieces chunk ++ '$' :: '\x7b' :: tail =
      (renderPieces chunk ++ ['$', '\x7b']) ++ tail := by
    rw [List.append_assoc]
    rfl
  rw [hsplit] at hlen ⊢
  refine scanFrom_code _ ?_
  rw [hof, Lexeme.template, hlen, List.length_append]
  rfl

/-- Where code ends, what follows does not change its last element. -/
lemma Element.mayPrecede_of_end {e : Element} {tail : List Char}
    (htail : tail = [] ∨ ∃ rest, tail = '\x7d' :: rest) : ∀ d ∈ tail.head?, e.MayPrecede d := by
  intro d hd
  rcases htail with rfl | ⟨rest, rfl⟩
  · simp at hd
  · obtain rfl : '\x7d' = d := Option.some.inj hd
    cases e with
    | word c cs => exact show isWordPart '\x7d' = false by decide
    | regex items flags => exact show isWordPart '\x7d' = false by decide
    | punctuation c =>
      rintro (rfl | rfl) <;> decide
    | division => exact show '\x7d' ≠ '/' ∧ '\x7d' ≠ '*' by decide
    | _ => trivial

/-- Every element is written with a character at least. -/
lemma Element.render_ne_nil (e : Element) : e.render ≠ [] := by
  cases e <;> simp [Element.render]

/-- The character after an element of code is that of the next element, if there is one. -/
lemma Element.mayPrecede_of_rest {e : Element} {rest : Code} {tail : List Char}
    (hrest : ∀ d ∈ rest.render.head?, e.MayPrecede d)
    (htail : tail = [] ∨ ∃ ds, tail = '\x7d' :: ds) :
    ∀ d ∈ (rest.render ++ tail).head?, e.MayPrecede d := by
  cases rest with
  | nil => exact mayPrecede_of_end htail
  | cons e' rest =>
    have hne : (Code.cons e' rest).render ≠ [] := by
      rw [Code.render]
      exact List.append_ne_nil_of_left_ne_nil e'.render_ne_nil _
    rwa [List.head?_append_of_ne_nil _ hne]

/-- A group is entered. -/
lemma scanFrom_openBrace : scanFrom s ('\x7b' :: tail) =
    scanFrom ⟨s.pos + byteLength ['\x7b'], true, true, Nesting.openGroup s.nesting⟩ tail :=
  scanFrom_code [] Lexeme.ofText_openBrace

/-- A group is left. -/
lemma scanFrom_closeBrace (h : Nesting.close s.nesting = (nesting, false)) :
    scanFrom s ('\x7d' :: tail) =
      scanFrom ⟨s.pos + byteLength ['\x7d'], true, false, nesting⟩ tail := by
  refine scanFrom_code [] ?_
  rw [Lexeme.ofText_closeBrace, Lexeme.closeBrace, h]
  rfl

/-! ### The induction over the syntax

The state before an element is taken as it comes, except that its memory of brackets is faithful and
that the element is well formed in it.  Code is followed by the end of the text or by the brace that
closes it, and template text is begun by a backquote or by the brace that closes a substitution. -/

mutual

/-- An element is scanned, and its comments are found. -/
theorem scanFrom_element {P : σ → Prop} (hP : Nesting.Faithful P) (e : Element)
    (s : ScanState σ) (tail : List Char) (hs : P s.nesting) (he : e.WellFormed s.regexAllowed)
    (htail : ∀ d ∈ tail.head?, e.MayPrecede d) :
    scanFrom s (e.render ++ tail) =
      e.comments s.pos s.lineHasContent ++ scanFrom (s.past e) tail := by
  match e with
  | .word c cs => exact scanFrom_word he htail
  | .double c => exact scanFrom_double he
  | .punctuation c => exact scanFrom_punctuation he htail
  | .quoted quote items =>
    rw [Element.render, List.cons_append, List.append_assoc]
    exact scanFrom_quoted he.1 he.2
  | .template head parts =>
    rw [Element.render, List.cons_append, List.append_assoc]
    exact scanFrom_substitutions hP parts head s s.nesting '\x60' tail hs he.1 he.2 fun _ =>
      Lexeme.ofText_backquote
  | .group body =>
    -- The state in which the code of the group is scanned.
    set s₁ : ScanState σ := ⟨s.pos + byteLength ['\x7b'], true, true, Nesting.openGroup s.nesting⟩
      with hs₁
    have hclose : Nesting.close (s₁.pastCode body).nesting = (s.nesting, false) := by
      rw [ScanState.nesting_pastCode]
      exact hP.close_openGroup _ hs
    have hpos : (s₁.pastCode body).pos + byteLength ['\x7d'] =
        s.pos + byteLength (Element.group body).render := by
      rw [ScanState.pos_pastCode, Element.render, hs₁]
      simp [Nat.add_assoc]
    rw [Element.render, List.cons_append, List.append_assoc, scanFrom_openBrace, ← hs₁]
    refine (scanFrom_render hP body s₁ ('\x7d' :: tail) (hP.openGroup _ hs) he
      (.inr ⟨tail, rfl⟩)).trans (congrArg _ ?_)
    rw [scanFrom_closeBrace hclose, hpos]
    rfl
  | .lineBreak c => exact scanFrom_layout (.inl rfl) (Lexeme.ofText_lineBreak he)
  | .blank c => exact scanFrom_layout (.inr rfl) (Lexeme.ofText_blank he)
  | .lineComment body c =>
    rw [Element.render, List.cons_append, List.cons_append, List.append_assoc]
    exact scanFrom_lineComment he.1 he.2
  | .blockComment body =>
    rw [Element.render, List.cons_append, List.cons_append, List.append_assoc]
    exact scanFrom_blockComment he
  | .regex items flags =>
    obtain ⟨hallowed, hne, hstar, hitems, hflags⟩ := he
    rw [Element.render, List.cons_append, List.append_assoc]
    exact scanFrom_regex hallowed hne hstar hitems hflags htail
  | .division => exact scanFrom_division he htail

/-- Code is scanned, and its comments are found. -/
theorem scanFrom_render {P : σ → Prop} (hP : Nesting.Faithful P) (code : Code)
    (s : ScanState σ) (tail : List Char) (hs : P s.nesting) (hcode : code.WellFormed s.regexAllowed)
    (htail : tail = [] ∨ ∃ rest, tail = '\x7d' :: rest) :
    scanFrom s (code.render ++ tail) =
      code.comments s.pos s.lineHasContent ++ scanFrom (s.pastCode code) tail := by
  match code with
  | .nil => rfl
  | .cons e rest =>
    obtain ⟨he, hnext, hrest⟩ := hcode
    rw [Code.render, List.append_assoc, scanFrom_element hP e s _ hs he
      (Element.mayPrecede_of_rest hnext htail), scanFrom_render hP rest (s.past e) tail hs hrest
      htail, ← List.append_assoc]
    rfl

/-- Template text and the substitutions after it are scanned, and their comments are found. -/
theorem scanFrom_substitutions {P : σ → Prop} (hP : Nesting.Faithful P) (parts : Substitutions)
    (chunk : List Piece) (s : ScanState σ) (nesting : σ) (c : Char) (tail : List Char)
    (hs : P nesting) (hchunk : IsChunk chunk) (hparts : parts.WellFormed)
    (hof : ∀ cs, Lexeme.ofText s.regexAllowed s.nesting c cs =
      Lexeme.template s.regexAllowed nesting cs) :
    scanFrom s (c :: (renderPieces chunk ++ (parts.render ++ tail))) =
      parts.comments (s.pos + byteLength (c :: renderPieces chunk)) ++
        scanFrom ⟨s.pos + byteLength (c :: (renderPieces chunk ++ parts.render)), true, false,
          nesting⟩ tail := by
  match parts with
  | .nil => exact scanFrom_closed hchunk hof
  | .cons code chunk' rest =>
    obtain ⟨hcode, hchunk', hrest⟩ := hparts
    -- The state in which the code of the substitution is scanned.
    set s₁ : ScanState σ := ⟨s.pos + byteLength (c :: (renderPieces chunk ++ ['$', '\x7b'])), true,
      true, Nesting.openSubstitution nesting⟩ with hs₁
    have hof' : ∀ cs, Lexeme.ofText (s₁.pastCode code).regexAllowed (s₁.pastCode code).nesting
        '\x7d' cs = Lexeme.template (s₁.pastCode code).regexAllowed nesting cs := by
      intro cs
      rw [Lexeme.ofText_closeBrace, ScanState.nesting_pastCode, Lexeme.closeBrace,
        hP.close_openSubstitution nesting hs]
    have hsplit : (Substitutions.cons code chunk' rest).render ++ tail = '$' :: '\x7b' ::
        (code.render ++ '\x7d' :: (renderPieces chunk' ++ (rest.render ++ tail))) := by
      simp [Substitutions.render]
    rw [hsplit, scanFrom_substitution hchunk hof, ← hs₁,
      scanFrom_render hP code s₁ _ (hP.openSubstitution nesting hs) hcode (.inr ⟨_, rfl⟩),
      scanFrom_substitutions hP rest chunk' (s₁.pastCode code) nesting '\x7d' tail hs hchunk' hrest
        hof', ← List.append_assoc, Substitutions.comments]
    have hstart : s₁.pos = s.pos + byteLength (c :: renderPieces chunk) +
        byteLength ['$', '\x7b'] := by
      rw [hs₁, Nat.add_assoc, ← byteLength_append]
      rfl
    have hpos : ∀ ds, (s₁.pastCode code).pos + byteLength ('\x7d' :: ds) =
        s.pos + byteLength (c :: (renderPieces chunk ++
          '$' :: '\x7b' :: (code.render ++ '\x7d' :: ds))) := by
      intro ds
      rw [ScanState.pos_pastCode, hstart]
      simp [Nat.add_assoc]
    have hnext : s.pos + byteLength (c :: (renderPieces chunk ++
        '$' :: '\x7b' :: (code.render ++ '\x7d' :: renderPieces chunk'))) =
        s.pos + byteLength (c :: renderPieces chunk) +
          byteLength ('$' :: '\x7b' :: (code.render ++ '\x7d' :: renderPieces chunk')) := by
      rw [Nat.add_assoc, ← byteLength_append]
      rfl
    rw [hpos, hpos, hstart, hnext]
    rfl

end

/-! ### Whole texts -/

/-- A text that does not begin with an interpreter line is scanned from its start. -/
lemma shebangLength_eq_zero {text : List Char} (h : ¬ ['#', '!'] <+: text) :
    shebangLength text = 0 := by
  unfold shebangLength
  split
  · rename_i cs
    exact absurd (List.prefix_append ['#', '!'] cs) h
  · rfl

/-- The scanner finds the comments of well-formed code, each with its form, its place, its body and
whether it is the first thing on its line, and nothing else. -/
theorem scan_render (code : Code) (hcode : code.WellFormed true)
    (hshebang : ¬ ['#', '!'] <+: code.render) : scan code.render = code.comments 0 false := by
  have hrun := scanFrom_render DepthCounter.faithful_bounded code ⟨0, false, true, Nesting.none⟩ []
    DepthCounter.faithful_bounded.none hcode (.inl rfl)
  rw [List.append_nil, scanFrom, List.append_nil] at hrun
  rw [scan, scanWith, shebangLength_eq_zero hshebang]
  exact hrun

/-- Code with a comment and a group inside of a substitution, a division after the template, and a
comment on a line of its own. -/
def sampleCode : Code :=
  .cons (.word 'x' []) <| .cons (.punctuation '=') <|
    .cons (.template [.plain '\x27']
      (.cons (.cons (.blockComment ['b']) <| .cons (.group .nil) .nil) [.escaped '\x60'] .nil)) <|
    .cons .division <| .cons (.word '2' []) <| .cons (.lineComment ['c'] '\n') <|
    .cons (.blank ' ') <| .cons (.lineComment ['d'] '\n') .nil

/-- The sample code is well formed, and its comments are found. -/
theorem scan_sampleCode : sampleCode.WellFormed true ∧ ¬ ['#', '!'] <+: sampleCode.render ∧
    scan sampleCode.render =
      [⟨.block true, 6, ['b'], false⟩, ⟨.line, 19, ['c'], false⟩, ⟨.line, 24, ['d'], true⟩] := by
  have hcode : sampleCode.WellFormed true := by decide +kernel
  have hshebang : ¬ ['#', '!'] <+: sampleCode.render := by decide
  refine ⟨hcode, hshebang, ?_⟩
  rw [scan_render sampleCode hcode hshebang]
  decide

end InlineExpect.Comment
