import Mathlib
import InlineExpect.Proofs.Comment.Terminated
import InlineExpect.Proofs.Text.LastLine

/-!
# Comments that are the first thing on their line

The scanner keeps one bit about the line it is on, whether it has seen anything but blanks there,
and sets it after every lexeme but a line break and a blank.  A lexeme may have line breaks in it,
so that the line on which it ends is not the one on which it began.  The bit is right all the same,
because a lexeme ends with a character that is neither blank nor line break, such as the closing
delimiter of a comment or of a template, or else the text or the line ends behind it
(`EndsOnContent`).

So the bit speaks of the characters behind the last line break (`Text.lastLine`) wherever the next
lexeme is not a line break, and these are the ones that the line index counts to the line
(`firstOnLine_iff_of_mem_scan`).
-/

namespace InlineExpect.Comment

open Text

/-! ### Pieces that end on content -/

/-- A character that is more than layout. -/
def IsContent (c : Char) : Prop := isLineBreak c = false ∧ isInlineBlank c = false

instance : DecidablePred IsContent := fun _ => inferInstanceAs (Decidable (_ ∧ _))

/-- The first `n` characters of a text end with content, unless the text or its line ends there. -/
def EndsOnContent (n : Nat) (cs : List Char) : Prop :=
  ∀ d ∈ (cs.drop n).head?, isLineBreak d = false → ∃ e ∈ (cs.take n).getLast?, IsContent e

section EndsOnContent

variable {n : Nat} {c : Char} {cs : List Char}

/-- A piece behind which a text or a line ends. -/
lemma endsOnContent_of_head? (h : ∀ d ∈ (cs.drop n).head?, isLineBreak d = true) :
    EndsOnContent n cs := by
  intro d hd hbreak
  rw [h d hd] at hbreak
  cases hbreak

/-- The end of a text. -/
lemma endsOnContent_nil : EndsOnContent 0 [] := by
  intro d hd
  cases hd

/-- A piece that is all content. -/
lemma endsOnContent_of_forall (hc : IsContent c) (h : ∀ e ∈ cs.take n, IsContent e) :
    EndsOnContent (1 + n) (c :: cs) := by
  intro d hd hbreak
  rw [Nat.add_comm, List.take_succ_cons]
  refine ⟨(c :: cs.take n).getLast (List.cons_ne_nil _ _), List.getLast?_eq_some_getLast _, ?_⟩
  rcases List.mem_cons.mp (List.getLast_mem (List.cons_ne_nil c (cs.take n))) with hlast | hlast
  · rwa [hlast]
  · exact h _ hlast

/-- A single character of content. -/
lemma endsOnContent_one (hc : IsContent c) (cs : List Char) : EndsOnContent 1 (c :: cs) :=
  endsOnContent_of_forall (n := 0) hc nofun

/-- A piece ends on content if it does behind its first character. -/
lemma EndsOnContent.cons (h : EndsOnContent n cs) (c : Char) : EndsOnContent (1 + n) (c :: cs) := by
  intro d hd hbreak
  rw [Nat.add_comm] at hd ⊢
  obtain ⟨e, he, hcontent⟩ := h d hd hbreak
  have hne : cs.take n ≠ [] := by
    intro hnil
    rw [hnil] at he
    cases he
  refine ⟨e, ?_, hcontent⟩
  rw [List.take_succ_cons]
  exact (List.getLast?_append_of_ne_nil [c] hne).trans he

end EndsOnContent

/-! ### How lexemes end -/

section Readers

variable (cs : List Char)

/-- A word character is content. -/
lemma isContent_of_isWordPart {c : Char} (h : isWordPart c = true) : IsContent c := by
  constructor
  · refine Bool.eq_false_iff.mpr fun hbreak => ?_
    rw [isWordPart_of_isLineBreak hbreak] at h
    cases h
  · refine Bool.eq_false_iff.mpr fun hblank => ?_
    rw [isWordPart_of_isInlineBlank hblank] at h
    cases h

/-- The rest of a word ends on content. -/
lemma endsOnContent_word {c : Char} (hc : IsContent c) :
    EndsOnContent (1 + wordLength cs) (c :: cs) :=
  endsOnContent_of_forall hc fun _ he =>
    isContent_of_isWordPart (isWordPart_of_mem_take_wordLength he)

/-- A string ends with its quote, or before a line break. -/
lemma endsOnContent_quoted {quote : Char} (hquote : IsContent quote) :
    EndsOnContent (quotedLength quote cs) cs := by
  fun_induction quotedLength quote cs with
  | case1 => exact endsOnContent_nil
  | case2 cs => exact endsOnContent_one hquote cs
  | case3 hne => exact endsOnContent_one (by decide) []
  | case4 rest hne ih =>
    rw [show 3 + quotedLength quote rest = 1 + (1 + (1 + quotedLength quote rest)) by omega]
    exact ((ih.cons '\n').cons '\r').cons '\\'
  | case5 c rest hcrlf hne ih =>
    rw [show 2 + quotedLength quote rest = 1 + (1 + quotedLength quote rest) by omega]
    exact (ih.cons c).cons '\\'
  | case6 c cs hne hslash hbreak =>
    refine endsOnContent_of_head? fun d hd => ?_
    rwa [← Option.some.inj hd]
  | case7 c cs hne hslash hbreak ih => exact ih.cons c

/-- A chunk of template text ends with its delimiter, or with the text. -/
lemma endsOnContent_template : EndsOnContent (templateChunk cs).1 cs := by
  fun_induction templateChunk cs with
  | case1 => exact endsOnContent_nil
  | case2 cs => exact endsOnContent_one (by decide) cs
  | case3 cs hne => exact (endsOnContent_one (by decide) cs).cons '$'
  | case4 rest hopen n ending hrest hne ih =>
    rw [hrest] at ih
    exact ih.cons '$'
  | case5 hne hdollar => exact endsOnContent_one (by decide) []
  | case6 c rest n ending hrest hne hdollar ih =>
    rw [hrest] at ih
    rw [show 2 + n = 1 + (1 + n) by omega]
    exact (ih.cons c).cons '\\'
  | case7 c cs hquote hdollar hslash n ending hcs ih =>
    rw [hcs] at ih
    exact ih.cons c

/-- A regular expression ends with its slash or its flags, or before a line break. -/
lemma endsOnContent_regex (inClass : Bool) : EndsOnContent (regexLength inClass cs) cs := by
  fun_induction regexLength inClass cs with
  | case1 => exact endsOnContent_nil
  | case2 inClass c cs hbreak =>
    refine endsOnContent_of_head? fun d hd => ?_
    rwa [← Option.some.inj hd]
  | case3 inClass hc => exact endsOnContent_one (by decide) []
  | case4 inClass d rest hbreak hc => exact endsOnContent_one (by decide) (d :: rest)
  | case5 inClass d rest hbreak hc ih =>
    rw [show 2 + regexLength inClass rest = 1 + (1 + regexLength inClass rest) by omega]
    exact (ih.cons d).cons '\\'
  | case6 inClass rest hc hslash ih => exact ih.cons '['
  | case7 inClass rest hc hslash hopen ih => exact ih.cons ']'
  | case8 inClass c rest hc hslash hopen hclose hend =>
    obtain ⟨rfl, -⟩ : c = '/' ∧ inClass = false := by simpa using hend
    exact endsOnContent_word rest (by decide)
  | case9 inClass c rest hc hslash hopen hclose hend ih => exact ih.cons c

/-- A block comment ends with its slash, or with the text. -/
lemma endsOnContent_block :
    EndsOnContent ((blockLength cs).1 + if (blockLength cs).2 then 2 else 0) cs := by
  fun_induction blockLength cs with
  | case1 => exact endsOnContent_nil
  | case2 rest => exact (endsOnContent_one (by decide) rest).cons '*'
  | case3 c cs hne n closed hcs ih =>
    rw [hcs] at ih
    rw [Nat.add_assoc]
    exact ih.cons c

end Readers

namespace Lexeme

variable {σ : Type} {allowed : Bool} {nesting : σ} {c : Char} {cs : List Char}

/-- A lexeme with a first character and what follows it puts something on its line, and ends on
it. -/
structure HasContent (x : Lexeme σ) (c : Char) (cs : List Char) : Prop where
  contentAfter_eq : ∀ before, ScanState.contentAfter before x.kind = true
  endsOnContent : EndsOnContent (1 + x.extra) (c :: cs)

/-- A choice between two lexemes has content if both of them do. -/
lemma hasContent_ite {p : Prop} [Decidable p] {x y : Lexeme σ} (hx : p → x.HasContent c cs)
    (hy : ¬ p → y.HasContent c cs) : (if p then x else y).HasContent c cs := by
  by_cases h : p
  · rw [if_pos h]
    exact hx h
  · rw [if_neg h]
    exact hy h

/-- Code has content if it ends on it. -/
lemma hasContent_code {n : Nat} (h : EndsOnContent (1 + n) (c :: cs)) :
    (⟨.code, n, allowed, nesting⟩ : Lexeme σ).HasContent c cs :=
  ⟨fun _ => rfl, h⟩

/-- What begins with a slash has content. -/
lemma hasContent_slash : (slash allowed nesting cs).HasContent '/' cs := by
  unfold slash
  split
  · rename_i rest
    refine ⟨fun _ => rfl, EndsOnContent.cons ?_ '/'⟩
    refine endsOnContent_of_head? fun d hd => ?_
    dsimp only at hd
    rw [Nat.add_comm, List.drop_succ_cons] at hd
    exact head?_drop_lineLength rest d hd
  · rename_i rest
    refine ⟨fun _ => rfl, EndsOnContent.cons ?_ '/'⟩
    dsimp only
    rw [Nat.add_assoc]
    exact (endsOnContent_block rest).cons '*'
  · refine hasContent_ite (fun _ => ?_) fun _ => ?_
    · exact hasContent_code ((endsOnContent_regex cs false).cons '/')
    · exact hasContent_code (endsOnContent_one (by decide) cs)

variable [Nesting σ]

/-- What is followed by template text has content. -/
lemma hasContent_template : (template allowed nesting cs).HasContent c cs := by
  have hends := (endsOnContent_template cs).cons c
  unfold template
  split
  all_goals
    rename_i n hn
    rw [hn] at hends
    exact hasContent_code hends

/-- A lexeme that is neither a line break nor a blank has content. -/
theorem hasContent_ofText (hc : IsContent c) : (ofText allowed nesting c cs).HasContent c cs := by
  have hsingle : EndsOnContent (1 + 0) (c :: cs) := endsOnContent_one hc cs
  unfold ofText
  rw [if_neg (by rw [hc.1]; exact Bool.false_ne_true),
    if_neg (by rw [hc.2]; exact Bool.false_ne_true)]
  refine hasContent_ite (fun hslash => hslash ▸ hasContent_slash) fun _ => ?_
  refine hasContent_ite (fun _ => hasContent_code ((endsOnContent_quoted cs hc).cons c)) fun _ => ?_
  refine hasContent_ite (fun _ => hasContent_template) fun _ => ?_
  refine hasContent_ite (fun _ => hasContent_code hsingle) fun _ => ?_
  refine hasContent_ite (fun _ => ?_) fun _ => ?_
  · -- A closing brace may be followed by template text.
    unfold closeBrace
    split
    · exact hasContent_template
    · exact hasContent_code hsingle
  refine hasContent_ite (fun _ => hasContent_code hsingle) fun _ => ?_
  refine hasContent_ite (fun _ => hasContent_code hsingle) fun _ => ?_
  refine hasContent_ite (fun hsign => hasContent_code ?_) fun _ => ?_
  · -- The second sign is the same as the first one.
    obtain ⟨-, hhead⟩ := Bool.and_eq_true_iff.mp hsign
    obtain ⟨rest, rfl⟩ := List.head?_eq_some_iff.mp (beq_iff_eq.mp hhead)
    exact (endsOnContent_one hc rest).cons c
  refine hasContent_ite (fun _ => hasContent_code (endsOnContent_word cs hc)) fun _ => ?_
  exact hasContent_code hsingle

end Lexeme

/-! ### The bit of the scanner -/

section Scanning

variable {σ : Type} [Nesting σ] {s : ScanState σ} {before cs : List Char}

/-- Content at the end of what has been read is content on the line. -/
lemma all_lastLine_append_eq_false {piece : List Char} {e : Char} (he : e ∈ piece.getLast?)
    (hcontent : IsContent e) : (lastLine (before ++ piece)).all isInlineBlank = false := by
  obtain ⟨init, rfl⟩ := List.getLast?_eq_some_iff.mp he
  rw [← List.append_assoc, lastLine_concat hcontent.1, List.all_append, List.all_cons, hcontent.2,
    Bool.false_and, Bool.and_false]

/-- A scanner that has read some characters knows its place, and whether its line has content,
unless a line break comes next. -/
structure ScanState.Knows (s : ScanState σ) (before cs : List Char) : Prop where
  pos_eq : s.pos = byteLength before
  lineHasContent_eq : ∀ d ∈ cs.head?, isLineBreak d = false →
    s.lineHasContent = !(lastLine before).all isInlineBlank

/-- A scanner knows its line after the next lexeme as well. -/
lemma ScanState.Knows.after {d : Char} {ds : List Char} (h : s.Knows before (d :: ds)) :
    let x := Lexeme.ofText s.regexAllowed s.nesting d ds
    (s.after x (d :: ds.take x.extra)).Knows (before ++ d :: ds.take x.extra)
      (ds.drop x.extra) := by
  intro x
  refine ⟨by rw [byteLength_append, ← h.pos_eq]; rfl, fun f hf hbreak => ?_⟩
  by_cases hd : isLineBreak d = true
  · have hx : x = ⟨.lineBreak, 0, s.regexAllowed, s.nesting⟩ := Lexeme.ofText_lineBreak hd
    rw [hx, List.take_zero, lastLine_concat_of_lineBreak hd]
    rfl
  have hd : isLineBreak d = false := Bool.eq_false_iff.mpr hd
  by_cases hblank : isInlineBlank d = true
  · have hx : x = ⟨.blank, 0, s.regexAllowed, s.nesting⟩ := Lexeme.ofText_blank hblank
    rw [hx, List.take_zero, lastLine_concat hd, List.all_append, List.all_cons, hblank,
      List.all_nil, Bool.and_true, Bool.and_true]
    exact h.lineHasContent_eq d rfl hd
  · have hx : x.HasContent d ds := Lexeme.hasContent_ofText ⟨hd, Bool.eq_false_iff.mpr hblank⟩
    have hends := hx.endsOnContent
    rw [EndsOnContent, Nat.add_comm, List.drop_succ_cons, List.take_succ_cons] at hends
    obtain ⟨e, he, hcontent⟩ := hends f hf hbreak
    rw [all_lastLine_append_eq_false he hcontent]
    exact hx.contentAfter_eq _

omit [Nesting σ] in
/-- A comment that the first lexeme is reported as is the first thing on its line if there is no
content before it. -/
lemma firstOnLine_of_comment?_eq_some {x : Lexeme σ} {c : Comment} (h : s.comment? x = some c) :
    c.firstOnLine = !s.lineHasContent := by
  unfold ScanState.comment? at h
  split at h
  · rw [← Option.some.inj h]
  · cases h

/-- A comment stands in a text behind what has been read, and tells whether there are only blanks
between the last line break and the comment. -/
def TellsLine (c : Comment) (before cs : List Char) : Prop :=
  ∃ between after, cs = between ++ (c.text ++ after) ∧
    c.start = byteLength (before ++ between) ∧
    c.firstOnLine = (lastLine (before ++ between)).all isInlineBlank

/-- A comment of the rest of a text stands in the text. -/
lemma TellsLine.append_left {c : Comment} {piece : List Char}
    (h : c.TellsLine (before ++ piece) cs) : c.TellsLine before (piece ++ cs) := by
  obtain ⟨between, after, rfl, hstart, hfirst⟩ := h
  rw [List.append_assoc] at hstart hfirst
  exact ⟨piece ++ between, after, (List.append_assoc _ _ _).symm, hstart, hfirst⟩

/-- The comments of the rest of a text tell whether they are the first thing on their line. -/
lemma tellsLine_of_mem_scanFrom {c : Comment} (h : c ∈ scanFrom s cs) (before : List Char)
    (hs : s.Knows before cs) : c.TellsLine before cs := by
  fun_induction scanFrom s cs generalizing before with
  | case1 s => simp at h
  | case2 s d ds x comments comment hcomment ih =>
    rw [← cons_take_append_drop d ds x.extra]
    rcases List.mem_cons.mp h with rfl | h
    · obtain ⟨hstart, htext⟩ := text_of_comment?_eq_some hcomment
      obtain ⟨tail, htail⟩ := Comment.exists_text_eq_cons c
      obtain ⟨rfl, -⟩ := List.cons.inj (htext.trans htail)
      have hcontent := hs.lineHasContent_eq '/' rfl (by decide)
      refine ⟨[], ds.drop x.extra, by rw [← htext]; rfl, ?_, ?_⟩
      · rw [hstart, hs.pos_eq, List.append_nil]
      · rw [firstOnLine_of_comment?_eq_some hcomment, hcontent, Bool.not_not, List.append_nil]
    · exact (ih h _ hs.after).append_left
  | case3 s d ds x comments hcomment ih =>
    rw [← cons_take_append_drop d ds x.extra]
    exact (ih h _ hs.after).append_left

end Scanning

/-- The scanner knows its line behind the interpreter line of a text. -/
lemma knows_start {σ : Type} (nesting : σ) (text : List Char) :
    let n := shebangLength text
    (⟨byteLength (text.take n), decide (0 < n), true, nesting⟩ : ScanState σ).Knows
      (text.take n) (text.drop n) := by
  intro n
  refine ⟨rfl, fun d hd hbreak => ?_⟩
  by_cases hn : n = 0
  · rw [hn]
    rfl
  · -- Behind an interpreter line there is a line break or nothing.
    obtain ⟨cs, rfl⟩ : ∃ cs, text = '#' :: '!' :: cs := by
      by_contra hnone
      exact hn (shebangLength.eq_2 text fun cs hcs => hnone ⟨cs, hcs⟩)
    have hlength : n = lineLength cs + 1 + 1 := Nat.add_comm 2 _
    rw [hlength, List.drop_succ_cons, List.drop_succ_cons] at hd
    rw [head?_drop_lineLength cs d hd] at hbreak
    cases hbreak

/-- A comment is reported as the first thing on its line if and only if all characters between the
start of the line, as the line index has it, and the comment are blanks. -/
theorem firstOnLine_iff_of_mem_scan {text : List Char} {c : Comment} (h : c ∈ scan text) :
    ∃ line before gap after, text = before ++ (gap ++ (c.text ++ after)) ∧
      c.start = byteLength (before ++ gap) ∧
      (LineIndex.ofText text).lineOf c.start = .ok line ∧
      (LineIndex.ofText text).lineStart line = .ok (byteLength before) ∧
      (c.firstOnLine = true ↔ ∀ d ∈ gap, isInlineBlank d = true) := by
  have hrest := tellsLine_of_mem_scanFrom h _ (knows_start (Nesting.none : DepthCounter) text)
  have htells : c.TellsLine [] text := by
    rw [← List.take_append_drop (shebangLength text) text]
    exact TellsLine.append_left hrest
  obtain ⟨read, after, htext, hstart, hfirst⟩ := htells
  rw [List.nil_append] at hstart hfirst
  obtain ⟨tail, htail⟩ := c.exists_text_eq_cons
  have hslash : ∀ d ∈ (c.text ++ after).head?, d ≠ '\n' := by
    rw [htail]
    rintro d hd rfl
    exact absurd (Option.some.inj hd) (by decide)
  obtain ⟨line, hline, hlineStart⟩ : ∃ line,
      (LineIndex.ofText (read ++ (c.text ++ after))).lineOf (byteLength read) = .ok line ∧
        (LineIndex.ofText (read ++ (c.text ++ after))).lineStart line =
          .ok (byteLength (earlierLines read)) := LineIndex.exists_lineStart hslash
  have hsplit := earlierLines_append_lastLine read
  rw [← htext, ← hstart] at hline
  rw [← htext] at hlineStart
  refine ⟨line, earlierLines read, lastLine read, after, ?_, ?_, hline, hlineStart, ?_⟩
  · rw [← List.append_assoc, hsplit, htext]
  · rw [hsplit, hstart]
  · rw [hfirst, List.all_eq_true]

/-- A comment behind an interpreter line, one behind blanks that ends on the next line, and one
behind that. -/
def sampleLayout : List Char := "#!run\n\t/* a\n */ // b".toList

/-- Of the comments of the sample layout the first one, on the second line, is the first thing on
its line, and the last one is not. -/
theorem firstOnLine_sampleLayout :
    ∃ c ∈ scan sampleLayout, ∃ d ∈ scan sampleLayout,
      c.start = 7 ∧ c.firstOnLine = true ∧ d.start = 16 ∧ d.firstOnLine = false ∧
      ∀ x ∈ [c, d], ∃ line before gap after,
        sampleLayout = before ++ (gap ++ (x.text ++ after)) ∧
        x.start = byteLength (before ++ gap) ∧
        (LineIndex.ofText sampleLayout).lineOf x.start = .ok line ∧
        (LineIndex.ofText sampleLayout).lineStart line = .ok (byteLength before) ∧
        (x.firstOnLine = true ↔ ∀ e ∈ gap, isInlineBlank e = true) := by
  have hscan : scan sampleLayout =
      [⟨.block true, 7, [' ', 'a', '\n', ' '], true⟩, ⟨.line, 16, [' ', 'b'], false⟩] := by
    decide +kernel
  have hc : ⟨.block true, 7, [' ', 'a', '\n', ' '], true⟩ ∈ scan sampleLayout :=
    hscan ▸ List.mem_cons_self
  have hd : ⟨.line, 16, [' ', 'b'], false⟩ ∈ scan sampleLayout :=
    hscan ▸ List.mem_cons_of_mem _ List.mem_cons_self
  refine ⟨_, hc, _, hd, rfl, rfl, rfl, rfl, fun x hx => firstOnLine_iff_of_mem_scan ?_⟩
  rw [hscan]
  exact hx

end InlineExpect.Comment
