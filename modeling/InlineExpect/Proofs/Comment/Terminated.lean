import Mathlib
import InlineExpect.Proofs.Comment.Lines
import InlineExpect.Proofs.Comment.Scanning
import InlineExpect.Proofs.Text.Terminator

/-!
# Comments of a text with other line terminators

The scanner asks of a line break only whether it is one, apart from an escaped CR LF in a string,
which is one line break.  So each lexeme of a text whose lines end with LF is found again when the
text has another terminator (`Lexeme.ofText_terminate`), and a whole scan finds the same comments,
each behind the same beginning of the text (`forall₂_scan_terminate`).

Where CR LF takes the place of LF, one step of the scanner becomes two.  The state after both is the
state that the one step leads to.
-/

namespace InlineExpect.Comment

open Text

variable {e : Terminator} {c : Char} {cs : List Char}

/-! ### How far lexemes reach -/

/-- Where a lexeme ends before a line break, it ends before the terminator in its place. -/
lemma exists_terminate_lf_eq_cons (e : Terminator) (cs : List Char) :
    ∃ d ds, terminate e ('\n' :: cs) = d :: ds ∧ isLineBreak d = true := by
  obtain ⟨d, ds, hchars, hbreak, -⟩ := e.exists_chars_eq_cons
  exact ⟨d, ds ++ terminate e cs, by rw [terminate_lf, hchars]; rfl, hbreak⟩

/-- A line ends before its terminator. -/
lemma lineLength_terminate (e : Terminator) (h : OnlyLf cs) :
    lineLength (terminate e cs) = terminatedLength e (lineLength cs) cs := by
  induction cs with
  | nil => rfl
  | cons c cs ih =>
    by_cases hc : c = '\n'
    · obtain ⟨d, ds, hds, hbreak⟩ := exists_terminate_lf_eq_cons e cs
      rw [hc, hds, lineLength, if_pos hbreak, lineLength, if_pos (by decide), terminatedLength_zero]
    · rw [terminate_cons hc, lineLength, lineLength, h.head hc, if_neg Bool.false_ne_true,
        if_neg Bool.false_ne_true, terminatedLength_cons hc, ih h.tail]

/-- A word ends before a terminator. -/
lemma wordLength_terminate (e : Terminator) (cs : List Char) :
    wordLength (terminate e cs) = terminatedLength e (wordLength cs) cs := by
  induction cs with
  | nil => rfl
  | cons c cs ih =>
    by_cases hc : c = '\n'
    · obtain ⟨d, ds, hds, hbreak⟩ := exists_terminate_lf_eq_cons e cs
      rw [hc, hds, wordLength, isWordPart_of_isLineBreak hbreak, if_neg Bool.false_ne_true,
        wordLength, isWordPart_of_isLineBreak (by decide), if_neg Bool.false_ne_true,
        terminatedLength_zero]
    · rw [terminate_cons hc, wordLength, wordLength]
      by_cases hword : isWordPart c = true
      · rw [if_pos hword, if_pos hword, terminatedLength_cons hc, ih]
      · rw [if_neg hword, if_neg hword, terminatedLength_zero]

/-- A block comment goes on after a character that does not begin its end. -/
lemma blockLength_cons (h : c = '*' → cs.head? ≠ some '/') :
    blockLength (c :: cs) = (1 + (blockLength cs).1, (blockLength cs).2) := by
  rw [blockLength.eq_def]
  split
  · rename_i heq
    cases heq
  · rename_i rest heq
    obtain ⟨rfl, rfl⟩ := List.cons.inj heq
    exact absurd rfl (h rfl)
  · rename_i heq
    obtain ⟨rfl, rfl⟩ := List.cons.inj heq
    rfl

/-- A block comment goes on after a terminator. -/
lemma blockLength_chars_append (e : Terminator) (cs : List Char) :
    blockLength (e.chars ++ cs) = (e.chars.length + (blockLength cs).1, (blockLength cs).2) := by
  have key : ∀ ds : List Char, '*' ∉ ds →
      blockLength (ds ++ cs) = (ds.length + (blockLength cs).1, (blockLength cs).2) := by
    intro ds hds
    induction ds with
    | nil => rw [List.nil_append, List.length_nil, Nat.zero_add]
    | cons d ds ih =>
      have hd : d ≠ '*' := fun hd => hds (hd ▸ List.mem_cons_self)
      rw [List.cons_append, blockLength_cons fun h => absurd h hd,
        ih fun hmem => hds (List.mem_cons_of_mem d hmem), List.length_cons]
      exact Prod.ext (by dsimp only; omega) rfl
  exact key e.chars (by cases e <;> decide)

/-- A block comment ends at the same star and slash. -/
lemma blockLength_terminate (e : Terminator) (cs : List Char) :
    blockLength (terminate e cs) =
      (terminatedLength e (blockLength cs).1 cs, (blockLength cs).2) := by
  induction cs with
  | nil => rfl
  | cons c cs ih =>
    by_cases hc : c = '\n'
    · rw [hc, terminate_lf, blockLength_chars_append, ih,
        blockLength_cons fun h => absurd h (by decide), terminatedLength_lf]
    · rw [terminate_cons hc]
      by_cases hend : c = '*' ∧ cs.head? = some '/'
      · obtain ⟨rfl, hslash⟩ := hend
        obtain ⟨rest, rfl⟩ := List.head?_eq_some_iff.mp hslash
        rw [terminate_cons (by decide)]
        rfl
      · have hstep : c = '*' → cs.head? ≠ some '/' := fun hs hslash => hend ⟨hs, hslash⟩
        have hstep' : c = '*' → (terminate e cs).head? ≠ some '/' := fun hs hslash =>
          hstep hs ((head?_terminate_eq_some_iff (by decide)).mp hslash)
        rw [blockLength_cons hstep, blockLength_cons hstep', ih, terminatedLength_cons hc]

/-- A string goes on after an escaped terminator, the LF of an escaped CR LF included. -/
lemma quotedLength_escaped_chars_append (e : Terminator) {quote : Char} (hquote : '\\' ≠ quote)
    (h : cs.head? ≠ some '\n') :
    quotedLength quote ('\\' :: (e.chars ++ cs)) = 1 + e.chars.length + quotedLength quote cs := by
  cases e with
  | crlf => exact quotedLength_continuation hquote cs
  | cr => exact quotedLength_escaped hquote _ h
  | lineSeparator => exact quotedLength_escaped hquote _ h
  | paragraphSeparator => exact quotedLength_escaped hquote _ h

/-- A string ends where it did. -/
lemma quotedLength_terminate (e : Terminator) {quote : Char}
    (hquote : quote = '\x27' ∨ quote = '\x22') (h : OnlyLf cs) :
    quotedLength quote (terminate e cs) = terminatedLength e (quotedLength quote cs) cs := by
  have hlf : quote ≠ '\n' := by rcases hquote with rfl | rfl <;> decide
  have hbreak : isLineBreak quote = false := by rcases hquote with rfl | rfl <;> decide
  fun_induction quotedLength quote cs with
  | case1 => rfl
  | case2 cs =>
    rw [terminate_cons hlf, quotedLength_quote]
    exact (terminatedLength_cons hlf 0 cs).symm
  | case3 hne =>
    rw [terminate_cons (by decide), terminate_nil, quotedLength.eq_def]
    dsimp only
    rw [if_neg hne, if_pos rfl]
    rfl
  | case4 rest hne ih =>
    have hcr : '\r' = '\n' := h '\r' (List.mem_cons_of_mem _ List.mem_cons_self) (by decide)
    exact absurd hcr (by decide)
  | case5 c rest hcrlf hne ih =>
    have hrest := head?_terminate_ne e rest
    have hlen : terminatedLength e (2 + quotedLength quote rest) ('\\' :: c :: rest) =
        1 + terminatedLength e (1 + quotedLength quote rest) (c :: rest) := by
      rw [show 2 + quotedLength quote rest = 1 + (1 + quotedLength quote rest) by omega]
      exact terminatedLength_cons (by decide) _ _
    rw [terminate_cons (by decide), hlen]
    by_cases hc : c = '\n'
    · rw [hc, terminate_lf, terminatedLength_lf, quotedLength_escaped_chars_append e hne hrest,
        ih h.tail.tail, Nat.add_assoc]
    · rw [terminate_cons hc, quotedLength_escaped hne _ hrest, terminatedLength_cons hc,
        ih h.tail.tail]
      omega
  | case6 c cs hne hslash hc =>
    obtain rfl : c = '\n' := h c List.mem_cons_self hc
    obtain ⟨d, ds, hds, hd⟩ := exists_terminate_lf_eq_cons e cs
    have hdquote : d ≠ quote := by
      rintro rfl
      exact absurd hd (by rw [hbreak]; exact Bool.false_ne_true)
    have hdslash : d ≠ '\\' := by
      rintro rfl
      exact absurd hd (by decide)
    rw [hds, quotedLength.eq_def]
    dsimp only
    rw [if_neg hdquote, if_neg hdslash, if_pos hd, terminatedLength_zero]
  | case7 c cs hne hslash hc ih =>
    have hcf : isLineBreak c = false := Bool.eq_false_iff.mpr hc
    have hclf : c ≠ '\n' := by
      rintro rfl
      exact hc (by decide)
    rw [terminate_cons hclf, quotedLength_plain ⟨hne, hslash, hcf⟩, ih h.tail,
      terminatedLength_cons hclf]

/-- Template text goes on after a line break. -/
lemma templateChunk_lineBreak (hc : isLineBreak c = true) (cs : List Char) :
    templateChunk (c :: cs) = (1 + (templateChunk cs).1, (templateChunk cs).2) := by
  have hne : ∀ d, isLineBreak d = false → c ≠ d := by
    rintro d hd rfl
    exact Bool.noConfusion (hc.symm.trans hd)
  exact templateChunk_plain ⟨hne _ (by decide), hne _ (by decide)⟩ cs
    fun hdollar => absurd hdollar (hne _ (by decide))

/-- Template text goes on after a terminator. -/
lemma templateChunk_chars_append (e : Terminator) (cs : List Char) :
    templateChunk (e.chars ++ cs) =
      (e.chars.length + (templateChunk cs).1, (templateChunk cs).2) := by
  cases e with
  | crlf =>
    change templateChunk ('\r' :: '\n' :: cs) = _
    rw [templateChunk_lineBreak (by decide), templateChunk_lineBreak (by decide), ← Nat.add_assoc]
    rfl
  | cr => exact templateChunk_lineBreak (by decide) cs
  | lineSeparator => exact templateChunk_lineBreak (by decide) cs
  | paragraphSeparator => exact templateChunk_lineBreak (by decide) cs

/-- Template text goes on after an escaped terminator, of which only the first character is
escaped. -/
lemma templateChunk_escaped_chars_append (e : Terminator) (cs : List Char) :
    templateChunk ('\\' :: (e.chars ++ cs)) =
      (1 + e.chars.length + (templateChunk cs).1, (templateChunk cs).2) := by
  cases e with
  | crlf =>
    change templateChunk ('\\' :: '\r' :: '\n' :: cs) = _
    rw [templateChunk_escaped, templateChunk_lineBreak (by decide), ← Nat.add_assoc]
    rfl
  | cr => exact templateChunk_escaped _ cs
  | lineSeparator => exact templateChunk_escaped _ cs
  | paragraphSeparator => exact templateChunk_escaped _ cs

/-- Template text ends where it did, and in the same way. -/
lemma templateChunk_terminate (e : Terminator) (cs : List Char) :
    templateChunk (terminate e cs) =
      (terminatedLength e (templateChunk cs).1 cs, (templateChunk cs).2) := by
  fun_induction templateChunk cs with
  | case1 => rfl
  | case2 cs =>
    rw [terminate_cons (by decide), templateChunk.eq_def]
    dsimp only
    rw [if_pos rfl]
    exact Prod.ext (terminatedLength_cons (by decide) 0 cs).symm rfl
  | case3 cs hne =>
    rw [terminate_cons (by decide), terminate_cons (by decide), templateChunk.eq_def]
    dsimp only
    rw [if_neg hne, if_pos rfl]
    rfl
  | case4 rest hopen n ending hrest hne ih =>
    have hhead : rest.head? ≠ some '\x7b' := by
      intro hhead
      obtain ⟨ds, hds⟩ := List.head?_eq_some_iff.mp hhead
      exact hopen ds hds
    have hhead' : (terminate e rest).head? ≠ some '\x7b' := fun h =>
      hhead ((head?_terminate_eq_some_iff (by decide)).mp h)
    rw [terminate_cons (by decide), templateChunk_plain ⟨by decide, by decide⟩ _ fun _ => hhead',
      ih, hrest, terminatedLength_cons (by decide)]
  | case5 hne hdollar =>
    rw [terminate_cons (by decide), terminate_nil, templateChunk.eq_def]
    rfl
  | case6 c rest n ending hrest hne hdollar ih =>
    rw [hrest] at ih
    have hlen : terminatedLength e (2 + n) ('\\' :: c :: rest) =
        1 + terminatedLength e (1 + n) (c :: rest) := by
      rw [show 2 + n = 1 + (1 + n) by omega]
      exact terminatedLength_cons (by decide) _ _
    rw [terminate_cons (by decide), hlen]
    by_cases hc : c = '\n'
    · rw [hc, terminate_lf, terminatedLength_lf, templateChunk_escaped_chars_append, ih,
        ← Nat.add_assoc]
    · rw [terminate_cons hc, templateChunk_escaped, ih, terminatedLength_cons hc]
      exact Prod.ext (by dsimp only; omega) rfl
  | case7 c cs hquote hdollar hslash n ending hcs ih =>
    rw [hcs] at ih
    by_cases hc : c = '\n'
    · rw [hc, terminate_lf, templateChunk_chars_append, ih, terminatedLength_lf]
    · rw [terminate_cons hc, templateChunk_plain ⟨hquote, hslash⟩ _ fun h => absurd h hdollar, ih,
        terminatedLength_cons hc]

/-- A regular expression ends where it did. -/
lemma regexLength_terminate (e : Terminator) (inClass : Bool) (h : OnlyLf cs) :
    regexLength inClass (terminate e cs) = terminatedLength e (regexLength inClass cs) cs := by
  have hlf : ∀ {d : Char}, ¬ isLineBreak d = true → d ≠ '\n' := by
    rintro d hd rfl
    exact hd (by decide)
  fun_induction regexLength inClass cs with
  | case1 => rfl
  | case2 inClass c cs hc =>
    obtain rfl : c = '\n' := h c List.mem_cons_self hc
    obtain ⟨d, ds, hds, hd⟩ := exists_terminate_lf_eq_cons e cs
    rw [hds, regexLength.eq_def]
    dsimp only
    rw [if_pos hd, terminatedLength_zero]
  | case3 inClass hc =>
    rw [terminate_cons (by decide), terminate_nil, regexLength.eq_def]
    rfl
  | case4 inClass d rest hd hc =>
    obtain rfl : d = '\n' := h d (List.mem_cons_of_mem _ List.mem_cons_self) hd
    obtain ⟨d', ds, hds, hd'⟩ := exists_terminate_lf_eq_cons e rest
    rw [terminate_cons (by decide), hds, regexLength.eq_def]
    dsimp only
    rw [if_neg hc, if_pos rfl, if_pos hd']
    rfl
  | case5 inClass d rest hd hc ih =>
    have hlen : terminatedLength e (2 + regexLength inClass rest) ('\\' :: d :: rest) =
        2 + terminatedLength e (regexLength inClass rest) rest := by
      rw [show 2 + regexLength inClass rest = 1 + (1 + regexLength inClass rest) by omega,
        terminatedLength_cons (by decide), terminatedLength_cons (hlf hd), ← Nat.add_assoc]
    rw [terminate_cons (by decide), terminate_cons (hlf hd),
      regexLength_escaped (Bool.eq_false_iff.mpr hd), ih h.tail.tail, hlen]
  | case6 inClass rest hc hslash ih =>
    rw [terminate_cons (by decide), regexLength_open, ih h.tail,
      terminatedLength_cons (by decide)]
  | case7 inClass rest hc hslash hopen ih =>
    rw [terminate_cons (by decide), regexLength_close, ih h.tail,
      terminatedLength_cons (by decide)]
  | case8 inClass c rest hc hslash hopen hclose hend =>
    rw [terminate_cons (hlf hc), regexLength.eq_def]
    dsimp only
    rw [if_neg hc, if_neg hslash, if_neg hopen, if_neg hclose, if_pos hend,
      wordLength_terminate, terminatedLength_cons (hlf hc)]
  | case9 inClass c rest hc hslash hopen hclose hend ih =>
    rw [terminate_cons (hlf hc), regexLength.eq_def]
    dsimp only
    rw [if_neg hc, if_neg hslash, if_neg hopen, if_neg hclose, if_neg hend, ih h.tail,
      terminatedLength_cons (hlf hc)]

/-! ### Lexemes -/

/-- The kind of a lexeme of a text with another terminator. -/
def Lexeme.Kind.terminate (e : Terminator) : Lexeme.Kind → Lexeme.Kind
  | .comment form body => .comment form (Text.terminate e body)
  | kind => kind

namespace Lexeme

variable {σ : Type} {allowed : Bool} {nesting : σ}

/-- A lexeme whose further characters come from a text, when the text has another terminator. -/
def terminate (e : Terminator) (x : Lexeme σ) (cs : List Char) : Lexeme σ :=
  { x with kind := x.kind.terminate e, extra := terminatedLength e x.extra cs }

@[simp] lemma extra_terminate (e : Terminator) (x : Lexeme σ) (cs : List Char) :
    (x.terminate e cs).extra = terminatedLength e x.extra cs := rfl

/-- A slash and a star begin the same block comment. -/
lemma slash_star_terminate (e : Terminator) (cs : List Char) :
    slash allowed nesting ('*' :: Text.terminate e cs) =
      (slash allowed nesting ('*' :: cs)).terminate e ('*' :: cs) := by
  rw [slash, blockLength_terminate, slash, terminate, Kind.terminate]
  rcases hn : blockLength cs with ⟨n, _ | _⟩
  · dsimp only
    rw [if_neg Bool.false_ne_true, take_terminatedLength, Nat.add_zero, Nat.add_zero,
      terminatedLength_cons (by decide)]
  · obtain ⟨rest, hrest⟩ := drop_blockLength hn
    have hlen : terminatedLength e (n + 2) cs = terminatedLength e n cs + 2 := by
      rw [terminatedLength, List.take_add, hrest, terminate_append, List.length_append]
      rfl
    dsimp only
    rw [if_pos rfl, take_terminatedLength, Nat.add_assoc, Nat.add_assoc,
      terminatedLength_cons (by decide), hlen]

/-- A slash begins the same lexeme. -/
lemma slash_terminate (e : Terminator) (h : OnlyLf cs) :
    slash allowed nesting (Text.terminate e cs) =
      (slash allowed nesting cs).terminate e cs := by
  by_cases hline : cs.head? = some '/'
  · obtain ⟨rest, rfl⟩ := List.head?_eq_some_iff.mp hline
    rw [terminate_cons (by decide), slash, slash, terminate, Kind.terminate,
      lineLength_terminate e h.tail, take_terminatedLength, terminatedLength_cons (by decide)]
  by_cases hblock : cs.head? = some '*'
  · obtain ⟨rest, rfl⟩ := List.head?_eq_some_iff.mp hblock
    rw [terminate_cons (by decide)]
    exact slash_star_terminate e rest
  have hcode : ∀ d ∈ cs.head?, d ≠ '/' ∧ d ≠ '*' := by
    intro d hd
    exact ⟨fun hslash => hline (hslash ▸ hd), fun hstar => hblock (hstar ▸ hd)⟩
  have hcode' : ∀ d ∈ (Text.terminate e cs).head?, d ≠ '/' ∧ d ≠ '*' := by
    intro d hd
    refine ⟨?_, ?_⟩
    · rintro rfl
      exact hline ((head?_terminate_eq_some_iff (by decide)).mp hd)
    · rintro rfl
      exact hblock ((head?_terminate_eq_some_iff (by decide)).mp hd)
  cases allowed with
  | true =>
    rw [slash_regex hcode, slash_regex hcode', regexLength_terminate e false h]
    rfl
  | false =>
    rw [slash_division hcode, slash_division hcode']
    rfl

/-- A word is the same lexeme. -/
lemma word_terminate (e : Terminator) (c : Char) (cs : List Char) :
    word nesting c (Text.terminate e cs) = (word nesting c cs).terminate e cs := by
  have hword : Text.terminate e (cs.take (wordLength cs)) = cs.take (wordLength cs) := by
    refine terminate_eq_self fun d hd => Bool.eq_false_iff.mpr fun hbreak => ?_
    have hpart := isWordPart_of_mem_take_wordLength hd
    rw [isWordPart_of_isLineBreak hbreak] at hpart
    cases hpart
  rw [word, word, wordLength_terminate, take_terminatedLength, hword]
  rfl

/-- A choice between two lexemes is the same if both of them are. -/
lemma ite_terminate {p : Prop} [Decidable p] {x x' y y' : Lexeme σ}
    (hx : p → x' = x.terminate e cs) (hy : ¬ p → y' = y.terminate e cs) :
    (if p then x' else y') = (if p then x else y).terminate e cs := by
  by_cases h : p
  · rw [if_pos h, if_pos h, hx h]
  · rw [if_neg h, if_neg h, hy h]

variable [Nesting σ]

/-- Template text is the same lexeme. -/
lemma template_terminate (e : Terminator) (cs : List Char) :
    template allowed nesting (Text.terminate e cs) =
      (template allowed nesting cs).terminate e cs := by
  rw [template, templateChunk_terminate, template]
  rcases templateChunk cs with ⟨n, _ | _ | _⟩
  · rfl
  · rfl
  · rfl

/-- A closing brace begins the same lexeme. -/
lemma closeBrace_terminate (e : Terminator) (cs : List Char) :
    closeBrace allowed nesting (Text.terminate e cs) =
      (closeBrace allowed nesting cs).terminate e cs := by
  rw [closeBrace, closeBrace]
  rcases Nesting.close nesting with ⟨outer, _ | _⟩
  · rfl
  · exact template_terminate e cs

/-- The first lexeme of a text stays the same when the text gets another terminator, unless it is a
line break. -/
theorem ofText_terminate (e : Terminator) (hc : isLineBreak c = false) (h : OnlyLf cs) :
    ofText allowed nesting c (Text.terminate e cs) =
      (ofText allowed nesting c cs).terminate e cs := by
  have hequals : ((Text.terminate e cs).head? != some '=') = (cs.head? != some '=') := by
    rw [Bool.eq_iff_iff, bne_iff_ne, bne_iff_ne, Ne, Ne,
      head?_terminate_eq_some_iff (by decide)]
  have hdouble : ((Text.terminate e cs).head? == some c) = (cs.head? == some c) := by
    rw [Bool.eq_iff_iff, beq_iff_eq, beq_iff_eq, head?_terminate_eq_some_iff hc]
  rw [ofText, ofText, hequals, hdouble]
  refine ite_terminate (fun _ => rfl) fun _ => ite_terminate (fun _ => rfl) fun _ => ?_
  refine ite_terminate (fun _ => slash_terminate e h) fun _ => ite_terminate (fun hquote => ?_) ?_
  · rw [Bool.or_eq_true, decide_eq_true_eq, decide_eq_true_eq] at hquote
    rw [quotedLength_terminate e hquote h]
    rfl
  intro _
  refine ite_terminate (fun _ => template_terminate e cs) fun _ => ?_
  refine ite_terminate (fun _ => rfl) fun _ => ?_
  refine ite_terminate (fun _ => closeBrace_terminate e cs) fun _ => ?_
  refine ite_terminate (fun _ => rfl) fun _ => ite_terminate (fun _ => rfl) fun _ => ?_
  refine ite_terminate (fun hsign => ?_) fun _ => ?_
  · rw [Bool.and_eq_true, beq_iff_eq] at hsign
    obtain ⟨rest, rfl⟩ := List.head?_eq_some_iff.mp hsign.2
    have hlf : c ≠ '\n' := by
      rintro rfl
      exact absurd hc (by decide)
    have hlen : terminatedLength e 1 (c :: rest) = 1 := terminatedLength_cons hlf 0 rest
    rw [terminate, hlen]
    rfl
  · exact ite_terminate (fun _ => word_terminate e c cs) fun _ => rfl

end Lexeme

/-! ### Scanning -/

/-- A comment of a text stands for a comment of the same text with another terminator if they are
the same comment behind the same beginning of the text. -/
structure IsTerminated (e : Terminator) (text : List Char) (c c' : Comment) : Prop where
  form_eq : c'.form = c.form
  body_eq : c'.body = terminate e c.body
  firstOnLine_eq : c'.firstOnLine = c.firstOnLine
  start_eq : ∃ before after, text = before ++ '/' :: after ∧ c.start = byteLength before ∧
    c'.start = byteLength (terminate e before)

section Scanning

variable {σ : Type}

/-- The comment that a lexeme is stays the same, but for its place. -/
lemma comment?_terminate (e : Terminator) (s : ScanState σ) (x : Lexeme σ) (cs : List Char)
    (pos : Nat) : ({ s with pos } : ScanState σ).comment? (x.terminate e cs) =
      (s.comment? x).map fun c => { c with start := pos, body := terminate e c.body } := by
  unfold ScanState.comment? Lexeme.terminate Lexeme.Kind.terminate
  cases x.kind <;> rfl

/-- The state after a lexeme stays the same, but for the place. -/
lemma after_terminate (e : Terminator) (s : ScanState σ) (x : Lexeme σ) (cs ds ds' : List Char)
    (pos : Nat) : ({ s with pos } : ScanState σ).after (x.terminate e cs) ds' =
      { s.after x ds with pos := pos + byteLength ds' } := by
  unfold ScanState.after Lexeme.terminate Lexeme.Kind.terminate
  cases x.kind <;> rfl

variable [Nesting σ]

/-- A terminator leads to the state that a LF leads to, but for the number of its bytes. -/
lemma scanFrom_chars_append (e : Terminator) (s : ScanState σ) (tail : List Char) :
    scanFrom s (e.chars ++ tail) =
      scanFrom ⟨s.pos + byteLength e.chars, false, s.regexAllowed, s.nesting⟩ tail := by
  have hstep : ∀ (s : ScanState σ) (c : Char) (cs : List Char), isLineBreak c = true →
      scanFrom s (c :: cs) =
        scanFrom ⟨s.pos + byteLength [c], false, s.regexAllowed, s.nesting⟩ cs :=
    fun s c cs hc => scanFrom_layout (.inl rfl) (Lexeme.ofText_lineBreak hc)
  cases e with
  | crlf =>
    change scanFrom s ('\r' :: '\n' :: tail) = _
    rw [hstep s _ _ (by decide), hstep _ _ _ (by decide), Nat.add_assoc]
    rfl
  | cr => exact hstep s _ _ (by decide)
  | lineSeparator => exact hstep s _ _ (by decide)
  | paragraphSeparator => exact hstep s _ _ (by decide)

/-- A comment that begins a text begins the text with another terminator. -/
lemma forall₂_comment?_terminate (e : Terminator) (before : List Char) (c : Char) (cs : List Char)
    {s : ScanState σ} (hpos : s.pos = byteLength before) :
    let x := Lexeme.ofText s.regexAllowed s.nesting c cs
    List.Forall₂ (IsTerminated e (before ++ c :: cs)) (s.comment? x).toList
      (({ s with pos := byteLength (terminate e before) } : ScanState σ).comment?
        (x.terminate e cs)).toList := by
  intro x
  rw [comment?_terminate]
  cases hcomment : s.comment? x with
  | none => exact .nil
  | some comment =>
    obtain ⟨hstart, htext⟩ := text_of_comment?_eq_some hcomment
    obtain ⟨ds, hds⟩ := comment.exists_text_eq_cons
    obtain ⟨rfl, -⟩ := List.cons.inj (htext.trans hds)
    exact .cons ⟨rfl, rfl, rfl, before, cs, rfl, hstart.trans hpos, rfl⟩ .nil

/-- The comments of the rest of a text are found again behind a beginning with the same
terminator. -/
lemma forall₂_scanFrom_terminate (e : Terminator) (before : List Char) (s : ScanState σ)
    (cs : List Char) (hpos : s.pos = byteLength before) (h : OnlyLf cs) :
    List.Forall₂ (IsTerminated e (before ++ cs)) (scanFrom s cs)
      (scanFrom { s with pos := byteLength (terminate e before) } (terminate e cs)) := by
  match cs with
  | [] =>
    rw [terminate_nil, scanFrom, scanFrom]
    exact .nil
  | c :: cs =>
    set x := Lexeme.ofText s.regexAllowed s.nesting c cs with hx
    -- The rest of the text behind the first lexeme, whose characters go to the beginning.
    have hrest := forall₂_scanFrom_terminate e (before ++ c :: cs.take x.extra)
      (s.after x (c :: cs.take x.extra)) (cs.drop x.extra)
      (by rw [byteLength_append, ← hpos]; rfl) (h.tail.drop x.extra)
    rw [List.append_assoc, cons_take_append_drop, terminate_append, byteLength_append] at hrest
    have hfirst := forall₂_comment?_terminate e before c cs hpos
    rw [← hx] at hfirst
    rw [scanFrom_cons, ← hx]
    by_cases hc : c = '\n'
    · subst hc
      have hlf : x = ⟨.lineBreak, 0, s.regexAllowed, s.nesting⟩ :=
        Lexeme.ofText_lineBreak (by decide)
      rw [hlf, List.take_zero, List.drop_zero, terminate_lf, terminate_nil,
        List.append_nil] at hrest
      rw [hlf, terminate_lf, scanFrom_chars_append]
      exact hrest
    · rw [terminate_cons hc] at hrest
      rw [terminate_cons hc, scanFrom_cons, Lexeme.ofText_terminate e (h.head hc) h.tail, ← hx,
        after_terminate e s x cs (c :: cs.take x.extra), Lexeme.extra_terminate,
        take_terminatedLength, drop_terminatedLength]
      exact List.rel_append hfirst hrest
termination_by cs.length
decreasing_by simp only [List.length_cons, List.length_drop]; omega

end Scanning

/-! ### Whole texts -/

/-- A text has an interpreter line if and only if it has one with another terminator. -/
lemma shebang_prefix_terminate_iff (e : Terminator) (text : List Char) :
    ['#', '!'] <+: terminate e text ↔ ['#', '!'] <+: text := by
  constructor
  · rintro ⟨ds, hds⟩
    have hhash : text.head? = some '#' :=
      (head?_terminate_eq_some_iff (e := e) (by decide)).mp (by rw [← hds]; rfl)
    obtain ⟨cs, rfl⟩ := List.head?_eq_some_iff.mp hhash
    rw [terminate_cons (by decide)] at hds
    have hbang : cs.head? = some '!' :=
      (head?_terminate_eq_some_iff (e := e) (by decide)).mp (by rw [← (List.cons.inj hds).2]; rfl)
    obtain ⟨rest, rfl⟩ := List.head?_eq_some_iff.mp hbang
    exact ⟨rest, rfl⟩
  · rintro ⟨rest, rfl⟩
    exact ⟨terminate e rest, rfl⟩

/-- An interpreter line has characters. -/
lemma shebangLength_pos_iff (text : List Char) : 0 < shebangLength text ↔ ['#', '!'] <+: text := by
  refine ⟨fun hpos => ?_, ?_⟩
  · by_contra hshebang
    exact absurd hpos (by rw [shebangLength_eq_zero hshebang]; exact lt_irrefl 0)
  · rintro ⟨rest, rfl⟩
    exact Nat.lt_of_lt_of_le Nat.zero_lt_two (Nat.le_add_right 2 (lineLength rest))

/-- The interpreter line ends before its terminator. -/
lemma shebangLength_terminate (e : Terminator) {text : List Char} (h : OnlyLf text) :
    shebangLength (terminate e text) = terminatedLength e (shebangLength text) text := by
  by_cases hshebang : ['#', '!'] <+: text
  · obtain ⟨cs, rfl⟩ := hshebang
    have hcs : OnlyLf cs := h.drop 2
    have hlen : terminatedLength e (2 + lineLength cs) ('#' :: '!' :: cs) =
        2 + terminatedLength e (lineLength cs) cs := by
      rw [show 2 + lineLength cs = 1 + (1 + lineLength cs) by omega,
        terminatedLength_cons (by decide), terminatedLength_cons (by decide), ← Nat.add_assoc]
    change shebangLength (terminate e ('#' :: '!' :: cs)) = _
    rw [terminate_cons (by decide), terminate_cons (by decide), shebangLength,
      lineLength_terminate e hcs]
    exact hlen.symm
  · have hshebang' := mt (shebang_prefix_terminate_iff e text).mp hshebang
    rw [shebangLength_eq_zero hshebang, shebangLength_eq_zero hshebang', terminatedLength_zero]

/-- The comments of a text are found again when the text has another terminator. -/
theorem forall₂_scan_terminate (e : Terminator) {text : List Char} (h : OnlyLf text) :
    List.Forall₂ (IsTerminated e text) (scan text) (scan (terminate e text)) := by
  set n := shebangLength text with hn
  have hpos : decide (0 < terminatedLength e n text) = decide (0 < n) := by
    rw [decide_eq_decide, hn, ← shebangLength_terminate e h, shebangLength_pos_iff,
      shebangLength_pos_iff, shebang_prefix_terminate_iff]
  have hscan := forall₂_scanFrom_terminate e (text.take n)
    ⟨byteLength (text.take n), decide (0 < n), true, (Nesting.none : DepthCounter)⟩ (text.drop n)
    rfl (h.drop n)
  rw [List.take_append_drop] at hscan
  rw [scan, scan, scanWith, scanWith, shebangLength_terminate e h, ← hn]
  rw [hpos, take_terminatedLength, drop_terminatedLength]
  exact hscan

end InlineExpect.Comment
