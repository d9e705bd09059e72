import Mathlib
import InlineExpect.Proofs.Comment.Bytewise.Loops
import InlineExpect.Proofs.Comment.Delimiters

/-!
# Iterations over bytes

At a boundary of a text an iteration of the bytewise scanner passes over exactly the lexeme that
stands there, and reports its comment, if it is one (`step_utf8`).
-/

namespace InlineExpect.Comment.Bytewise

open Text

variable {text rest cs : List Char} {pos : Nat} {c : Char} {s : State}

/-! ### The end of a block comment -/

/-- A byte that does not begin a pattern is passed over. -/
lemma find?_append_of_notMem {b : UInt8} {pattern front : List UInt8} (h : b ∉ front)
    (bytes : List UInt8) : find? (b :: pattern) (front ++ bytes) =
      (find? (b :: pattern) bytes).map (· + front.length) := by
  induction front with
  | nil => simp
  | cons d front ih =>
    rw [List.mem_cons, not_or] at h
    obtain ⟨hd, hfront⟩ := h
    have hne : ¬ (b :: pattern).isPrefixOf (d :: (front ++ bytes)) = true := by
      intro hbegins
      exact hd (List.cons_prefix_cons.mp (List.isPrefixOf_iff_prefix.mp hbegins)).1
    rw [List.cons_append, find?, if_neg hne, ih hfront, Option.map_map, List.length_cons]
    rfl

/-- The search for the end of a block comment goes on behind a character that does not begin it. -/
lemma find?_utf8_cons (h : ¬ ['*', '/'] <+: c :: cs) : find? [0x2a, 0x2f] (utf8 (c :: cs)) =
    (find? [0x2a, 0x2f] (utf8 cs)).map (· + c.utf8Size) := by
  obtain ⟨b, more, hb⟩ := List.exists_cons_of_ne_nil (String.utf8EncodeChar_ne_nil (c := c))
  have hsize : c.utf8Size = more.length + 1 := by
    rw [← String.length_utf8EncodeChar, hb, List.length_cons]
  have hmore : 0x2a ∉ more := by
    intro hmem
    obtain ⟨i, hi⟩ := List.mem_iff_getElem?.mp hmem
    have hget : (String.utf8EncodeChar c)[i + 1]? = some 0x2a := by rwa [hb]
    obtain ⟨hlt, hbyte⟩ := List.getElem?_eq_some_iff.mp hget
    have hfirst : UInt8.IsUTF8FirstByte 0x2a := by decide
    rw [← hbyte, UInt8.isUTF8FirstByte_getElem_utf8EncodeChar] at hfirst
    cases hfirst
  have hne : ¬ List.isPrefixOf [0x2a, 0x2f] (b :: (more ++ utf8 cs)) = true := by
    intro hbegins
    apply h
    rw [← utf8_prefix_utf8_iff]
    change [0x2a, 0x2f] <+: String.utf8EncodeChar c ++ utf8 cs
    rw [hb]
    exact List.isPrefixOf_iff_prefix.mp hbegins
  rw [utf8, hb, List.cons_append, find?, if_neg hne, find?_append_of_notMem hmore, Option.map_map,
    hsize]
  rfl

/-- The end of a block comment is found in the bytes where it is in the text. -/
lemma find?_utf8 (cs : List Char) : find? [0x2a, 0x2f] (utf8 cs) =
    if (blockLength cs).2 then some (byteLength (cs.take (blockLength cs).1)) else none := by
  induction cs with
  | nil => rfl
  | cons c cs ih =>
    by_cases hend : ['*', '/'] <+: c :: cs
    · obtain ⟨rest, hrest⟩ := hend
      rw [← hrest]
      rfl
    · have hstep : c = '*' → cs.head? ≠ some '/' := by
        rintro rfl hslash
        obtain ⟨rest, rfl⟩ := List.head?_eq_some_iff.mp hslash
        exact hend ⟨rest, rfl⟩
      rw [find?_utf8_cons hend, ih, blockLength_cons hstep]
      dsimp only
      cases (blockLength cs).2 with
      | true =>
        rw [if_pos rfl, if_pos rfl, byteLength_take_one_add, Nat.add_comm c.utf8Size]
        rfl
      | false => rfl

/-! ### Comments -/

/-- What an iteration comes to that passes over a lexeme: the token of its comment, if it is one,
and the state behind it. -/
def outcome (s : State) (c : Char) (cs : List Char) (x : Lexeme DepthCounter) :
    Option Token × State :=
  ((s.comment? x).map Token.ofComment, s.after x (c :: cs.take x.extra))

/-- Below 32 bits the span between two offsets is what it should be. -/
lemma spanOfBounds_eq {start stop : Nat} (hle : start ≤ stop) (hstop : stop < 2 ^ 32) :
    spanOfBounds start stop = .ok ⟨start, stop - start⟩ := by
  rw [spanOfBounds, Nat.mod_eq_of_lt hstop, Nat.mod_eq_of_lt (hle.trans_lt hstop), if_pos hle]
  rfl

/-- A comment has two bytes before its body, and two behind it if it is closed. -/
lemma byteLength_text (form : Form) (start : Nat) (body : List Char) (first : Bool) :
    byteLength (Comment.text ⟨form, start, body, first⟩) =
      2 + (byteLength body + if form = .block true then 2 else 0) := by
  have hslash : ('/').utf8Size = 1 := rfl
  have hstar : ('*').utf8Size = 1 := rfl
  rw [Comment.text]
  dsimp only
  cases form with
  | line =>
    rw [byteLength_cons, byteLength_cons, hslash, if_neg (by decide)]
    omega
  | block closed =>
    cases closed with
    | true =>
      rw [List.cons_append, List.cons_append, byteLength_cons, byteLength_cons, byteLength_append,
        byteLength_cons, byteLength_cons, byteLength_nil, hslash, hstar, if_pos rfl]
      omega
    | false =>
      rw [byteLength_cons, byteLength_cons, hslash, hstar, if_neg (by decide)]
      omega

/-- A comment that begins with a slash is reported with the place of its text. -/
lemma comment_eq_outcome {form : Form} {body : List Char} {n stop : Nat}
    (h : SplitsAt text s.pos ('/' :: cs)) (hlength : byteLength text < 2 ^ 32)
    (hx : Lexeme.slash s.regexAllowed s.nesting cs =
      ⟨.comment form body, n, s.regexAllowed, s.nesting⟩)
    (hstop : stop = s.pos + byteLength (Comment.text ⟨form, s.pos, body, !s.lineHasContent⟩)) :
    comment (form == .line) s stop =
      .ok (outcome s '/' cs (Lexeme.slash s.regexAllowed s.nesting cs)) := by
  have htext : '/' :: cs.take n = Comment.text ⟨form, s.pos, body, !s.lineHasContent⟩ := by
    have hkind := congrArg Lexeme.kind hx
    have htake := Lexeme.text_slash_eq s.pos (!s.lineHasContent) hkind
    rwa [hx] at htake
  have hle : stop ≤ byteLength text := by
    have hsplit := (h.drop (n + 1)).pos_le
    rwa [List.take_succ_cons, htext, ← hstop] at hsplit
  have hspan : stop - s.pos = byteLength (Comment.text ⟨form, s.pos, body, !s.lineHasContent⟩) := by
    omega
  rw [comment, spanOfBounds_eq (by omega) (by omega), ok_bind, hspan, outcome, hx]
  dsimp only [ScanState.comment?, ScanState.after, ScanState.contentAfter]
  rw [htext, ← hstop]
  rfl

/-- What begins with a slash is passed over. -/
lemma slash_utf8 (h : SplitsAt text s.pos ('/' :: cs)) (hlength : byteLength text < 2 ^ 32) :
    slash (utf8 text) s = .ok (outcome s '/' cs (Lexeme.slash s.regexAllowed s.nesting cs)) := by
  have h₁ : SplitsAt text (s.pos + 1) cs := h.tail
  have hslash := getElem?_utf8_eq_some_iff (b := 0x2f) (d := '/') h₁ rfl
  have hstar := getElem?_utf8_eq_some_iff (b := 0x2a) (d := '*') h₁ rfl
  rw [slash]
  by_cases hline : cs.head? = some '/'
  · obtain ⟨rest, rfl⟩ := List.head?_eq_some_iff.mp hline
    have h₂ : SplitsAt text (s.pos + 2) rest := h₁.tail
    rw [if_pos (hslash.mpr rfl), skipLine_utf8 h₂, ok_bind]
    apply comment_eq_outcome h hlength (Lexeme.slash_line rest)
    rw [byteLength_text, if_neg (by decide), Nat.add_assoc, Nat.add_zero]
  rw [if_neg (mt hslash.mp hline)]
  by_cases hblock : cs.head? = some '*'
  · obtain ⟨rest, rfl⟩ := List.head?_eq_some_iff.mp hblock
    have h₂ : SplitsAt text (s.pos + 2) rest := h₁.tail
    rw [if_pos (hstar.mpr rfl), tailFrom_utf8 h₂, ok_bind, find?_utf8]
    cases hclosed : (blockLength rest).2 with
    | true =>
      rw [if_pos rfl]
      apply comment_eq_outcome h hlength (Lexeme.slash_block rest)
      rw [byteLength_text, hclosed, if_pos rfl, Nat.add_assoc]
    | false =>
      -- The search finds nothing, and the body is all that is left.
      have hend := h₂.pos_add_byteLength
      rw [if_neg Bool.false_ne_true]
      apply comment_eq_outcome h hlength (Lexeme.slash_block rest)
      rw [byteLength_text, hclosed, if_neg (by decide), blockLength_of_open hclosed,
        List.take_length, Nat.add_zero, length_utf8]
      omega
  rw [if_neg (mt hstar.mp hblock)]
  have hcode : ∀ d ∈ cs.head?, d ≠ '/' ∧ d ≠ '*' := Lexeme.ne_of_head?_ne hline hblock
  by_cases hregex : s.regexAllowed = true
  · rw [if_pos hregex, skipRegex, loop_regexRound h₁ (length_lt_fuel h₁), ok_bind, hregex,
      Lexeme.slash_regex hcode, Nat.add_assoc]
    rfl
  · rw [if_neg hregex, Bool.eq_false_iff.mpr hregex, Lexeme.slash_division hcode]
    rfl

/-! ### Code -/

/-- At an offset no more braces are open than bytes have been read, and no substitution is open
without a brace. -/
structure SoundAt (pos : Nat) (n : DepthCounter) : Prop where
  depth_le : n.depth ≤ pos
  pos_of_mem : ∀ d ∈ n.substitutions, 0 < d

/-- Template text is passed over. -/
lemma skipTemplate_utf8 (h : SplitsAt text s.pos rest) (hdepth : s.nesting.depth + 1 < 2 ^ 32) :
    skipTemplate (utf8 text) s =
      .ok (behind s (Lexeme.template s.regexAllowed s.nesting rest) rest) :=
  loop_templateRound h hdepth (length_lt_fuel h)

/-- A closing brace is passed over, with the template text that goes on behind a substitution. -/
lemma closeBrace_utf8 (h : SplitsAt text s.pos ('\x7d' :: cs)) (hs : SoundAt s.pos s.nesting)
    (hdepth : s.nesting.depth + 1 < 2 ^ 32) :
    closeBrace (utf8 text) s = .ok (behind { s with pos := s.pos + 1 }
      (Lexeme.closeBrace s.regexAllowed s.nesting cs) cs) := by
  have h₁ : SplitsAt text (s.pos + 1) cs := h.tail
  obtain ⟨pos, hasContent, allowed, depth, substitutions⟩ := s
  rw [closeBrace, Lexeme.closeBrace]
  cases substitutions with
  | nil => rfl
  | cons d ds =>
    dsimp only at h₁ hdepth ⊢
    by_cases hd : d = depth
    · -- The count is that of a substitution, and so there is a brace to close.
      obtain ⟨n, rfl⟩ := Nat.exists_eq_add_one.mpr (hs.pos_of_mem d List.mem_cons_self)
      subst hd
      have hclose : Nesting.close (⟨n + 1, (n + 1) :: ds⟩ : DepthCounter) = (⟨n, ds⟩, true) :=
        if_pos rfl
      rw [if_pos List.head?_cons, decrement, ok_bind, hclose]
      exact skipTemplate_utf8 h₁ (Nat.lt_of_succ_lt hdepth)
    · have hclose : Nesting.close (⟨depth, d :: ds⟩ : DepthCounter) =
          (⟨depth - 1, d :: ds⟩, false) := if_neg hd
      rw [if_neg (by simpa using hd), hclose]
      rfl

/-- The byte behind an ASCII character is that of an ASCII character if the text goes on with it. -/
lemma getElem?_utf8_succ_beq {d : Char} (h : SplitsAt text pos (c :: cs)) (hc : c.utf8Size = 1)
    (hd : d.utf8Size = 1) :
    ((utf8 text)[pos + 1]? == some d.val.toUInt8) = (cs.head? == some d) := by
  have h₁ := h.tail
  rw [hc] at h₁
  exact getElem?_utf8_beq h₁ (String.utf8EncodeChar_eq_singleton hd)

/-- A condition matters only where the one before it holds. -/
lemma band_congr_of_left {p q r : Bool} (h : p = true → q = r) : (p && q) = (p && r) := by
  cases p with
  | true => rw [h rfl]
  | false => rfl

/-- The bytes of a word are those of a keyword if the word is. -/
lemma any_keyword_utf8 (word : List Char) :
    (expressionKeywords.any fun keyword => utf8 keyword.toList == utf8 word) =
      isKeywordBeforeExpression word := by
  have hbeq : ∀ ds : List Char, (utf8 ds == utf8 word) = (ds == word) := by
    intro ds
    rw [Bool.eq_iff_iff, beq_iff_eq, beq_iff_eq, utf8_injective.eq_iff]
  simp only [hbeq]
  rfl

/-- A computation comes to the state behind a piece of code. -/
def Passes (s : State) (cs : List Char) (m : Except Fault State) (x : Lexeme DepthCounter) : Prop :=
  m = .ok (behind s x cs)

/-- A computation that depends on what a lexeme depends on passes over it. -/
lemma passes_ite {p : Prop} [Decidable p] {m n : Except Fault State} {x y : Lexeme DepthCounter}
    (hx : p → Passes s cs m x) (hy : ¬ p → Passes s cs n y) :
    Passes s cs (if p then m else n) (if p then x else y) := by
  by_cases hp : p
  · rw [if_pos hp, if_pos hp]
    exact hx hp
  · rw [if_neg hp, if_neg hp]
    exact hy hp

/-- Code is passed over. -/
lemma code_utf8 (h : SplitsAt text s.pos (c :: cs)) (hs : SoundAt s.pos s.nesting)
    (hlength : byteLength text < 2 ^ 32) (hbreak : ¬ isLineBreak c = true)
    (hblank : ¬ isInlineBlank c = true) (hslash : c ≠ '/') :
    Passes { s with pos := s.pos + c.utf8Size } cs (code (utf8 text) s c)
      (Lexeme.ofText s.regexAllowed s.nesting c cs) := by
  have hdepth : s.nesting.depth + 1 < 2 ^ 32 := by
    have hle := hs.depth_le
    have hlt := h.pos_lt
    omega
  have hbang : (decide (c = '!') && (utf8 text)[s.pos + 1]? != some 0x3d) =
      (decide (c = '!') && cs.head? != some '=') := by
    apply band_congr_of_left
    intro hc
    obtain rfl := of_decide_eq_true hc
    exact congrArg not (getElem?_utf8_succ_beq (d := '=') h rfl rfl)
  have hdouble : ((decide (c = '+') || decide (c = '-')) &&
      (utf8 text)[s.pos + 1]? == some c.val.toUInt8) =
      ((decide (c = '+') || decide (c = '-')) && cs.head? == some c) := by
    apply band_congr_of_left
    intro hc
    have hsize : c.utf8Size = 1 := by
      rw [Bool.or_eq_true, decide_eq_true_eq, decide_eq_true_eq] at hc
      rcases hc with rfl | rfl <;> rfl
    exact getElem?_utf8_succ_beq h hsize hsize
  -- Both ask for the same characters in the same order, once the bytes ahead are characters.
  rw [code, Lexeme.ofText, if_neg hbreak, if_neg hblank, if_neg hslash, hbang, hdouble]
  apply passes_ite
  · intro hc
    rw [Bool.or_eq_true, decide_eq_true_eq, decide_eq_true_eq] at hc
    have hsize : c.utf8Size = 1 := by rcases hc with rfl | rfl <;> rfl
    have h₁ : SplitsAt text (s.pos + 1) cs := hsize ▸ h.tail
    rw [skipQuoted, loop_quotedRound hc h₁ (length_lt_fuel h₁), ok_bind, hsize]
    rfl
  intro _
  apply passes_ite
  · rintro rfl
    exact skipTemplate_utf8 h.tail hdepth
  intro _
  apply passes_ite
  · rintro rfl
    rw [increment, if_pos hdepth]
    rfl
  intro _
  apply passes_ite
  · rintro rfl
    exact closeBrace_utf8 h hs hdepth
  intro _
  apply passes_ite
  · intro hc
    rw [Bool.or_eq_true, decide_eq_true_eq, decide_eq_true_eq] at hc
    rcases hc with rfl | rfl <;> rfl
  intro _
  apply passes_ite
  · intro hc
    obtain rfl := of_decide_eq_true (Bool.and_eq_true_iff.mp hc).1
    rfl
  intro _
  apply passes_ite
  · intro hc
    obtain ⟨hsign, hnext⟩ := Bool.and_eq_true_iff.mp hc
    obtain ⟨rest, rfl⟩ := List.head?_eq_some_iff.mp (beq_iff_eq.mp hnext)
    rw [Bool.or_eq_true, decide_eq_true_eq, decide_eq_true_eq] at hsign
    rcases hsign with rfl | rfl <;> rfl
  intro _
  apply passes_ite
  · intro hword
    have htake : (c :: cs).take (wordLength (c :: cs)) = c :: cs.take (wordLength cs) := by
      rw [wordLength, if_pos hword, Nat.add_comm, List.take_succ_cons]
    rw [skipWord_utf8 h, htake, ok_bind, Passes, behind, Lexeme.word]
    dsimp only
    rw [any_keyword_utf8, byteLength_cons, Nat.add_assoc]
  intro _
  rfl

/-! ### Iterations -/

/-- What is neither layout nor begins with a slash is no comment, and puts something on its line. -/
lemma outcome_code (hbreak : ¬ isLineBreak c = true) (hblank : ¬ isInlineBlank c = true)
    (hslash : c ≠ '/') :
    let x := Lexeme.ofText s.regexAllowed s.nesting c cs
    outcome s c cs x =
      (none, { behind { s with pos := s.pos + c.utf8Size } x cs with lineHasContent := true }) := by
  intro x
  have hcontent : ScanState.contentAfter s.lineHasContent x.kind = true := by
    apply (Lexeme.hasContent_ofText _).contentAfter_eq
    exact ⟨Bool.eq_false_iff.mpr hbreak, Bool.eq_false_iff.mpr hblank⟩
  have hcomment : s.comment? x = none := by
    unfold ScanState.comment?
    split
    · rename_i hkind
      exact absurd hkind (Lexeme.kind_ofText_ne hslash)
    · rfl
  rw [outcome, hcomment, ScanState.after, hcontent, behind, byteLength_cons, Nat.add_assoc]
  rfl

/-- An iteration passes over the lexeme that stands at a boundary, and reports its comment. -/
theorem step_utf8 (h : SplitsAt text s.pos (c :: cs)) (hs : SoundAt s.pos s.nesting)
    (hlength : byteLength text < 2 ^ 32) : step (utf8 text) s =
      .ok (some (outcome s c cs (Lexeme.ofText s.regexAllowed s.nesting c cs))) := by
  have hlt : ¬ (utf8 text).length ≤ s.pos := by
    rw [length_utf8]
    exact Nat.not_le_of_lt h.pos_lt
  rw [step, if_neg hlt, charAt?_utf8_cons h, ok_bind]
  dsimp only
  by_cases hbreak : isLineBreak c = true
  · rw [if_pos hbreak, Lexeme.ofText_lineBreak hbreak]
    rfl
  by_cases hblank : isInlineBlank c = true
  · rw [if_neg hbreak, if_pos hblank, Lexeme.ofText_blank hblank]
    rfl
  rw [if_neg hbreak, if_neg hblank]
  by_cases hslash : c = '/'
  · subst hslash
    rw [if_pos rfl, slash_utf8 h hlength, Lexeme.ofText_slash]
    rfl
  · have hcode : code (utf8 text) s c = _ := code_utf8 h hs hlength hbreak hblank hslash
    rw [if_neg hslash, hcode, ok_bind, outcome_code hbreak hblank hslash]

/-- There is no iteration at the end of a text. -/
theorem step_utf8_nil (h : SplitsAt text s.pos []) : step (utf8 text) s = .ok none := by
  have hle : (utf8 text).length ≤ s.pos := by
    rw [length_utf8, ← h.pos_add_byteLength]
    exact le_rfl
  rw [step, if_pos hle]

end InlineExpect.Comment.Bytewise
