import Mathlib
import InlineExpect.Proofs.Comment.Bytewise
import InlineExpect.Proofs.Comment.Lookahead

/-!
# Loops over bytes

At a boundary of a text the bytewise loops pass over exactly the characters that the functions on
texts count, and end behind them at a boundary again.  Each proof follows the recursion of the
function on texts, of which every case is a round of the loop, or two at the end of the text.  A
round that is not the last one reads a character at least.  So the rounds are never used up as long
as there are more of them than characters left, which is what the inductions carry along.
-/

namespace InlineExpect.Comment.Bytewise

open Text

variable {text rest : List Char} {pos : Nat}

/-! ### Reading at a boundary -/

/-- A computation goes on with what was read. -/
@[simp] lemma ok_bind {α β : Type} (a : α) (f : α → Except Fault β) :
    ((Except.ok a : Except Fault α) >>= f) = f a := rfl

/-- A text can be read from a boundary on. -/
lemma tailFrom_utf8 (h : SplitsAt text pos rest) : tailFrom (utf8 text) pos = .ok (utf8 rest) := by
  rw [tailFrom, h.drop_utf8]
  cases rest with
  | nil =>
    have hpos : pos = (utf8 text).length := by
      rw [length_utf8, ← h.pos_add_byteLength]
      rfl
    exact if_pos hpos
  | cons c cs =>
    have hfirst : ∀ b ∈ (String.utf8EncodeChar c).head?, b.IsUTF8FirstByte := by
      intro b hb
      obtain ⟨hpos, rfl⟩ := List.getElem?_eq_some_iff.mp (List.head?_eq_getElem? ▸ hb)
      exact UInt8.isUTF8FirstByte_getElem_utf8EncodeChar.mpr rfl
    obtain ⟨b, bytes, hb⟩ := List.exists_cons_of_ne_nil (String.utf8EncodeChar_ne_nil (c := c))
    rw [hb] at hfirst
    rw [utf8, hb]
    exact if_pos (hfirst b rfl)

/-- The character at a boundary is the first one of the rest. -/
lemma charAt?_utf8 (h : SplitsAt text pos rest) : charAt? (utf8 text) pos = .ok rest.head? := by
  rw [charAt?, tailFrom_utf8 h, ok_bind, decode?_utf8]

/-- Where characters are left, the first of them is read. -/
lemma charAt?_utf8_cons {c : Char} {cs : List Char} (h : SplitsAt text pos (c :: cs)) :
    charAt? (utf8 text) pos = .ok (some c) := charAt?_utf8 h

/-- The bytes between two boundaries are those of the characters between them. -/
lemma slice_utf8 {front : List Char} (h : SplitsAt text pos (front ++ rest)) :
    slice (utf8 text) pos (pos + byteLength front) = .ok (utf8 front) := by
  rw [slice, tailFrom_utf8 h, tailFrom_utf8 h.append, ok_bind, ok_bind,
    if_pos (Nat.le_add_right _ _), Nat.add_sub_cancel_left, utf8_append, ← length_utf8,
    List.take_left]

/-- A byte of an ASCII character stands at a boundary if the character does. -/
lemma getElem?_utf8_eq_some_iff {b : UInt8} {d : Char} (h : SplitsAt text pos rest)
    (hd : String.utf8EncodeChar d = [b]) : (utf8 text)[pos]? = some b ↔ rest.head? = some d := by
  rw [h.getElem?_utf8, head?_utf8_eq_some_iff hd]

/-- A byte of an ASCII character is found at a boundary if the character is. -/
lemma getElem?_utf8_beq {b : UInt8} {d : Char} (h : SplitsAt text pos rest)
    (hd : String.utf8EncodeChar d = [b]) :
    ((utf8 text)[pos]? == some b) = (rest.head? == some d) := by
  rw [Bool.eq_iff_iff, beq_iff_eq, beq_iff_eq]
  exact getElem?_utf8_eq_some_iff h hd

/-- A text has no more characters than bytes. -/
lemma length_le_byteLength (cs : List Char) : cs.length ≤ byteLength cs := by
  induction cs with
  | nil => exact le_rfl
  | cons c cs ih =>
    have hpos := c.utf8Size_pos
    rw [List.length_cons, byteLength_cons]
    omega

/-- There are enough rounds to read what is left of a text. -/
lemma length_lt_fuel (h : SplitsAt text pos rest) : rest.length < (utf8 text).length + 1 := by
  have hbytes := h.pos_add_byteLength
  have hlength := length_le_byteLength rest
  rw [length_utf8]
  omega

/-! ### Loops -/

section Loop

variable {σ ρ : Type} {round : σ → Except Fault (Round σ ρ)} {s t : σ} {fuel : Nat}

/-- A loop goes on after a round that is followed by another one. -/
lemma loop_of_next (h : round s = .ok (.next t)) (hfuel : 0 < fuel) :
    loop round fuel s = loop round (fuel - 1) t := by
  obtain ⟨n, rfl⟩ := Nat.exists_eq_add_one.mpr hfuel
  rw [loop, h]
  rfl

/-- A loop ends with the result of its last round. -/
lemma loop_of_done {r : ρ} (h : round s = .ok (.done r)) (hfuel : 0 < fuel) :
    loop round fuel s = .ok r := by
  obtain ⟨n, rfl⟩ := Nat.exists_eq_add_one.mpr hfuel
  rw [loop, h]

end Loop

section Pieces

variable {fuel : Nat}

/-- The first character and some more have its bytes and theirs. -/
lemma byteLength_take_one_add (c : Char) (cs : List Char) (n : Nat) :
    byteLength ((c :: cs).take (1 + n)) = c.utf8Size + byteLength (cs.take n) := by
  rw [Nat.add_comm, List.take_succ_cons, byteLength_cons]

/-- A backslash, the character behind it and some more have the bytes of all of them. -/
lemma byteLength_take_two_add (c : Char) (cs : List Char) (n : Nat) :
    byteLength (('\\' :: c :: cs).take (2 + n)) = 1 + c.utf8Size + byteLength (cs.take n) := by
  have hsize : ('\\').utf8Size = 1 := rfl
  rw [show 2 + n = 1 + (1 + n) by omega, byteLength_take_one_add, byteLength_take_one_add, hsize,
    Nat.add_assoc]

/-! ### Lines and words -/

/-- The characters of a class are passed over. -/
lemma loop_whileRound (p : Char → Bool) (h : SplitsAt text pos rest) (hfuel : rest.length < fuel) :
    loop (whileRound (utf8 text) p) fuel pos = .ok (pos + byteLength (rest.takeWhile p)) := by
  induction rest generalizing pos fuel with
  | nil =>
    apply loop_of_done _ hfuel
    rw [whileRound, charAt?_utf8 h]
    rfl
  | cons c cs ih =>
    rw [List.length_cons] at hfuel
    have hround : whileRound (utf8 text) p pos =
        .ok (if p c then .next (pos + c.utf8Size) else .done pos) := by
      rw [whileRound, charAt?_utf8 h]
      rfl
    by_cases hc : p c = true
    · rw [if_pos hc] at hround
      rw [loop_of_next hround (by omega), ih h.tail (by omega), List.takeWhile_cons_of_pos hc,
        byteLength_cons, Nat.add_assoc]
    · rw [if_neg hc] at hround
      rw [loop_of_done hround (by omega), List.takeWhile_cons_of_neg hc]
      rfl

/-- The characters before the end of a line are those up to its line break. -/
lemma take_lineLength (cs : List Char) :
    cs.take (lineLength cs) = cs.takeWhile fun c => !isLineBreak c := by
  induction cs with
  | nil => rfl
  | cons c cs ih =>
    rw [lineLength]
    by_cases hc : isLineBreak c = true
    · rw [if_pos hc, List.takeWhile_cons_of_neg (by simp [hc]), List.take_zero]
    · rw [if_neg hc, Nat.add_comm, List.take_succ_cons, ih,
        List.takeWhile_cons_of_pos (by simp [hc])]

/-- The characters of a word are those up to one that is no word character. -/
lemma take_wordLength (cs : List Char) :
    cs.take (wordLength cs) = cs.takeWhile isWordPart := by
  induction cs with
  | nil => rfl
  | cons c cs ih =>
    rw [wordLength]
    by_cases hc : isWordPart c = true
    · rw [if_pos hc, Nat.add_comm, List.take_succ_cons, ih, List.takeWhile_cons_of_pos hc]
    · rw [if_neg hc, List.takeWhile_cons_of_neg hc, List.take_zero]

/-- The rest of a line is passed over. -/
lemma skipLine_utf8 (h : SplitsAt text pos rest) :
    skipLine (utf8 text) pos = .ok (pos + byteLength (rest.take (lineLength rest))) := by
  rw [skipLine, skipWhile, loop_whileRound _ h (length_lt_fuel h), take_lineLength]

/-- A word is passed over. -/
lemma skipWord_utf8 (h : SplitsAt text pos rest) :
    skipWord (utf8 text) pos = .ok (pos + byteLength (rest.take (wordLength rest)),
      utf8 (rest.take (wordLength rest))) := by
  have hsplit : SplitsAt text pos (rest.take (wordLength rest) ++ rest.drop (wordLength rest)) := by
    rwa [List.take_append_drop]
  rw [skipWord, skipWhile, loop_whileRound _ h (length_lt_fuel h), ← take_wordLength, ok_bind,
    slice_utf8 hsplit, ok_bind]

/-! ### Strings -/

/-- A backslash is passed over with the character behind it, or with a whole CR LF. -/
lemma quotedRound_escape {quote d : Char} (hquote : '\\' ≠ quote)
    (h : SplitsAt text pos ('\\' :: d :: rest)) :
    quotedRound (utf8 text) quote pos = .ok (.next (if d = '\r' && rest.head? == some '\n' then
      pos + 1 + d.utf8Size + 1 else pos + 1 + d.utf8Size)) := by
  have h₁ : SplitsAt text (pos + 1) (d :: rest) := h.tail
  rw [quotedRound, charAt?_utf8_cons h, ok_bind]
  dsimp only
  rw [if_neg hquote, if_pos rfl, charAt?_utf8_cons h₁, ok_bind]
  dsimp only
  have hlf : String.utf8EncodeChar '\n' = [0x0a] := rfl
  rw [getElem?_utf8_beq h₁.tail hlf]

/-- A string is passed over. -/
lemma loop_quotedRound {quote : Char} (hquote : quote = '\x27' ∨ quote = '\x22')
    (h : SplitsAt text pos rest) (hfuel : rest.length < fuel) :
    loop (quotedRound (utf8 text) quote) fuel pos =
      .ok (pos + byteLength (rest.take (quotedLength quote rest))) := by
  have hsize : quote.utf8Size = 1 := by rcases hquote with rfl | rfl <;> rfl
  fun_induction quotedLength quote rest generalizing pos fuel with
  | case1 =>
    apply loop_of_done _ hfuel
    rw [quotedRound, charAt?_utf8 h]
    rfl
  | case2 cs =>
    have hround : quotedRound (utf8 text) quote pos = .ok (.done (pos + 1)) := by
      rw [quotedRound, charAt?_utf8 h]
      exact if_pos rfl
    rw [loop_of_done hround (Nat.zero_lt_of_lt hfuel), List.take_succ_cons, byteLength_cons, hsize]
    rfl
  | case3 hne =>
    have h₁ : SplitsAt text (pos + 1) [] := h.tail
    have hround : quotedRound (utf8 text) quote pos = .ok (.next (pos + 1)) := by
      rw [quotedRound, charAt?_utf8_cons h, ok_bind]
      dsimp only
      rw [if_neg hne, if_pos rfl, charAt?_utf8 h₁]
      rfl
    have hend : quotedRound (utf8 text) quote (pos + 1) = .ok (.done (pos + 1)) := by
      rw [quotedRound, charAt?_utf8 h₁]
      rfl
    rw [List.length_singleton] at hfuel
    rw [loop_of_next hround (by omega), loop_of_done hend (by omega)]
    rfl
  | case4 rest hne ih =>
    have hround : quotedRound (utf8 text) quote pos = .ok (.next (pos + 3)) :=
      quotedRound_escape hne h
    have h₃ : SplitsAt text (pos + 3) rest := h.tail.tail.tail
    have hsize : byteLength (('\\' :: '\r' :: '\n' :: rest).take (3 + quotedLength quote rest)) =
        3 + byteLength (rest.take (quotedLength quote rest)) := by
      rw [show 3 + quotedLength quote rest = 2 + (1 + quotedLength quote rest) by omega,
        byteLength_take_two_add, byteLength_take_one_add, ← Nat.add_assoc]
      rfl
    rw [List.length_cons, List.length_cons, List.length_cons] at hfuel
    rw [loop_of_next hround (by omega), ih h₃ (by omega), hsize, Nat.add_assoc]
  | case5 c rest hcrlf hne ih =>
    have hround := quotedRound_escape hne h
    have hhead : ¬ (c = '\r' && rest.head? == some '\n') = true := by
      intro hboth
      rw [Bool.and_eq_true, decide_eq_true_eq, beq_iff_eq] at hboth
      obtain ⟨rfl, hlf⟩ := hboth
      obtain ⟨more, rfl⟩ := List.head?_eq_some_iff.mp hlf
      exact hcrlf more rfl rfl
    rw [if_neg hhead] at hround
    rw [List.length_cons, List.length_cons] at hfuel
    have h₂ : SplitsAt text (pos + 1 + c.utf8Size) rest := h.tail.tail
    rw [loop_of_next hround (by omega), ih h₂ (by omega), byteLength_take_two_add, Nat.add_assoc,
      Nat.add_assoc, Nat.add_assoc]
  | case6 c cs hne hslash hbreak =>
    have hround : quotedRound (utf8 text) quote pos = .ok (.done pos) := by
      rw [quotedRound, charAt?_utf8 h]
      simp [hne, hslash, hbreak]
    rw [loop_of_done hround (Nat.zero_lt_of_lt hfuel)]
    rfl
  | case7 c cs hne hslash hbreak ih =>
    have hround : quotedRound (utf8 text) quote pos = .ok (.next (pos + c.utf8Size)) := by
      rw [quotedRound, charAt?_utf8 h]
      simp [hne, hslash, hbreak]
    rw [List.length_cons] at hfuel
    rw [loop_of_next hround (by omega), ih h.tail (by omega), byteLength_take_one_add,
      Nat.add_assoc]

/-! ### Template text -/

/-- The state behind a piece of code that has been read from what is left of a text. -/
def behind (s : State) (x : Lexeme DepthCounter) (cs : List Char) : State :=
  ⟨s.pos + byteLength (cs.take x.extra), s.lineHasContent, x.regexAllowed, x.nesting⟩

/-- Template text that goes on behind some characters ends as what follows them. -/
lemma template_eq_of_add {allowed : Bool} {nesting : DepthCounter} {cs ds : List Char} {k : Nat}
    (h : templateChunk ds = (k + (templateChunk cs).1, (templateChunk cs).2)) :
    Lexeme.template allowed nesting ds =
      { Lexeme.template allowed nesting cs with
        extra := k + (Lexeme.template allowed nesting cs).extra } := by
  unfold Lexeme.template
  rw [h]
  rcases templateChunk cs with ⟨n, _ | _ | _⟩ <;> rfl

/-- Template text goes on behind a character. -/
lemma behind_template_plain {s : State} {c : Char} {cs : List Char}
    (h : (Piece.plain c).IsTemplateText) (hopen : c = '$' → cs.head? ≠ some '\x7b') :
    behind s (Lexeme.template s.regexAllowed s.nesting (c :: cs)) (c :: cs) =
      behind { s with pos := s.pos + c.utf8Size }
        (Lexeme.template s.regexAllowed s.nesting cs) cs := by
  rw [template_eq_of_add (templateChunk_plain h cs hopen), behind, behind,
    byteLength_take_one_add, Nat.add_assoc]

/-- Template text goes on behind an escaped character. -/
lemma behind_template_escaped {s : State} {c : Char} {cs : List Char} :
    behind s (Lexeme.template s.regexAllowed s.nesting ('\\' :: c :: cs)) ('\\' :: c :: cs) =
      behind { s with pos := s.pos + 1 + c.utf8Size }
        (Lexeme.template s.regexAllowed s.nesting cs) cs := by
  rw [template_eq_of_add (templateChunk_escaped c cs), behind, behind, byteLength_take_two_add,
    Nat.add_assoc, Nat.add_assoc, Nat.add_assoc]

/-- A character that neither ends template text nor escapes is passed over. -/
lemma templateRound_plain {s : State} {c : Char} {cs : List Char}
    (h : SplitsAt text s.pos (c :: cs)) (hc : (Piece.plain c).IsTemplateText)
    (hopen : c = '$' → cs.head? ≠ some '\x7b') :
    templateRound (utf8 text) s = .ok (.next { s with pos := s.pos + c.utf8Size }) := by
  obtain ⟨hquote, hslash⟩ := hc
  have hbrace : ¬ (c = '$' && (utf8 text)[s.pos + 1]? == some 0x7b) = true := by
    intro hboth
    rw [Bool.and_eq_true, decide_eq_true_eq, beq_iff_eq] at hboth
    obtain ⟨rfl, hbyte⟩ := hboth
    have h₁ : SplitsAt text (s.pos + 1) cs := h.tail
    exact hopen rfl ((getElem?_utf8_eq_some_iff h₁ rfl).mp hbyte)
  rw [templateRound, charAt?_utf8_cons h, ok_bind]
  dsimp only
  rw [if_neg hquote, if_neg hbrace, if_neg hslash]

/-- Template text is passed over. -/
lemma loop_templateRound {s : State} (h : SplitsAt text s.pos rest)
    (hdepth : s.nesting.depth + 1 < 2 ^ 32) (hfuel : rest.length < fuel) :
    loop (templateRound (utf8 text)) fuel s =
      .ok (behind s (Lexeme.template s.regexAllowed s.nesting rest) rest) := by
  induction rest using templateChunk.induct generalizing s fuel with
  | case1 =>
    apply loop_of_done _ hfuel
    rw [templateRound, charAt?_utf8 h]
    rfl
  | case2 cs =>
    apply loop_of_done _ (Nat.zero_lt_of_lt hfuel)
    have hend : templateChunk ('\x60' :: cs) = (1, .closed) := by
      rw [templateChunk.eq_def]
      exact if_pos rfl
    rw [templateRound, charAt?_utf8 h, Lexeme.template, hend]
    rfl
  | case3 cs hne =>
    have hbyte : (utf8 text)[s.pos + 1]? = some 0x7b := by
      have h₁ : SplitsAt text (s.pos + 1) ('\x7b' :: cs) := h.tail
      exact (getElem?_utf8_eq_some_iff h₁ rfl).mpr rfl
    have hend : templateChunk ('$' :: '\x7b' :: cs) = (2, .substitution) := by
      rw [templateChunk.eq_def]
      dsimp only
      rw [if_neg hne, if_pos rfl]
      rfl
    apply loop_of_done _ (Nat.zero_lt_of_lt hfuel)
    rw [templateRound, charAt?_utf8_cons h, ok_bind]
    dsimp only
    rw [if_neg hne, hbyte, if_pos (by decide), increment, if_pos hdepth, Lexeme.template, hend]
    rfl
  | case4 rest hopen n ending hrest hne ih =>
    have hhead : rest.head? ≠ some '\x7b' := by
      intro hbrace
      obtain ⟨more, hmore⟩ := List.head?_eq_some_iff.mp hbrace
      exact hopen more hmore
    have hplain : (Piece.plain '$').IsTemplateText := ⟨by decide, by decide⟩
    rw [List.length_cons] at hfuel
    rw [loop_of_next (templateRound_plain h hplain fun _ => hhead) (by omega),
      behind_template_plain hplain fun _ => hhead]
    exact ih h.tail hdepth (by omega)
  | case5 hne hdollar =>
    have h₁ : SplitsAt text (s.pos + 1) [] := h.tail
    have hround : templateRound (utf8 text) s = .ok (.next { s with pos := s.pos + 1 }) := by
      rw [templateRound, charAt?_utf8_cons h, ok_bind]
      dsimp only
      rw [if_neg hne, if_neg (by simp), if_pos rfl, charAt?_utf8 h₁]
      rfl
    have hend : templateRound (utf8 text) { s with pos := s.pos + 1 } =
        .ok (.done { s with pos := s.pos + 1 }) := by
      rw [templateRound, charAt?_utf8 h₁]
      rfl
    rw [List.length_singleton] at hfuel
    rw [loop_of_next hround (by omega), loop_of_done hend (by omega)]
    have hchunk : templateChunk ['\\'] = (1, .unfinished) := rfl
    rw [Lexeme.template, hchunk]
    rfl
  | case6 c rest n ending hrest hne hdollar ih =>
    have h₁ : SplitsAt text (s.pos + 1) (c :: rest) := h.tail
    have hround : templateRound (utf8 text) s =
        .ok (.next { s with pos := s.pos + 1 + c.utf8Size }) := by
      rw [templateRound, charAt?_utf8_cons h, ok_bind]
      dsimp only
      rw [if_neg hne, if_neg (by simp), if_pos rfl, charAt?_utf8 h₁]
      rfl
    rw [List.length_cons, List.length_cons] at hfuel
    rw [loop_of_next hround (by omega), behind_template_escaped]
    exact ih h₁.tail hdepth (by omega)
  | case7 c cs hquote hdollar hslash n ending hcs ih =>
    have hopen : c = '$' → cs.head? ≠ some '\x7b' := fun hc => absurd hc hdollar
    rw [List.length_cons] at hfuel
    rw [loop_of_next (templateRound_plain h ⟨hquote, hslash⟩ hopen) (by omega),
      behind_template_plain ⟨hquote, hslash⟩ hopen]
    exact ih h.tail hdepth (by omega)

/-! ### Regular expressions -/

/-- A character that is neither a line break nor a backslash is passed over. -/
lemma regexRound_plain (inClass : Bool) {c : Char} {cs : List Char}
    (h : SplitsAt text pos (c :: cs)) (hbreak : ¬ isLineBreak c = true) (hslash : c ≠ '\\') :
    regexRound (utf8 text) (pos, inClass) = .ok (
      if c = '[' then .next (pos + c.utf8Size, true)
      else if c = ']' then .next (pos + c.utf8Size, false)
      else if c = '/' && !inClass then .done (pos + c.utf8Size, true)
      else .next (pos + c.utf8Size, inClass)) := by
  rw [regexRound, charAt?_utf8_cons h, ok_bind]
  dsimp only
  rw [if_neg hbreak, if_neg hslash]
  split_ifs <;> rfl

/-- A backslash is passed over with the character behind it, unless that is a line break. -/
lemma regexRound_escape (inClass : Bool) {d : Char} (hbreak : ¬ isLineBreak '\\' = true)
    (h : SplitsAt text pos ('\\' :: d :: rest)) :
    regexRound (utf8 text) (pos, inClass) = .ok (
      if isLineBreak d then .done (pos + 1, false)
      else .next (pos + 1 + d.utf8Size, inClass)) := by
  have h₁ : SplitsAt text (pos + 1) (d :: rest) := h.tail
  have hsize : ('\\').utf8Size = 1 := rfl
  rw [regexRound, charAt?_utf8_cons h, ok_bind]
  dsimp only
  rw [if_neg hbreak, if_pos rfl, hsize, charAt?_utf8_cons h₁, ok_bind]
  dsimp only
  split_ifs <;> rfl

/-- The flags of a regular expression are passed over. -/
lemma skipFlags_utf8 (h : SplitsAt text pos rest) :
    skipFlags (utf8 text) (pos, true) = .ok (pos + byteLength (rest.take (wordLength rest))) := by
  rw [skipFlags, if_pos rfl, skipWord_utf8 h, ok_bind]

/-- A regular expression is passed over, flags included. -/
lemma loop_regexRound {inClass : Bool} (h : SplitsAt text pos rest) (hfuel : rest.length < fuel) :
    (do let s ← loop (regexRound (utf8 text)) fuel (pos, inClass); skipFlags (utf8 text) s) =
      .ok (pos + byteLength (rest.take (regexLength inClass rest))) := by
  fun_induction regexLength inClass rest generalizing pos fuel with
  | case1 inClass =>
    have hround : regexRound (utf8 text) (pos, inClass) = .ok (.done (pos, true)) := by
      rw [regexRound, charAt?_utf8 h]
      rfl
    rw [loop_of_done hround hfuel, ok_bind, skipFlags_utf8 h]
    rfl
  | case2 inClass c cs hbreak =>
    have hround : regexRound (utf8 text) (pos, inClass) = .ok (.done (pos, false)) := by
      rw [regexRound, charAt?_utf8 h]
      exact if_pos hbreak
    rw [loop_of_done hround (Nat.zero_lt_of_lt hfuel)]
    rfl
  | case3 inClass hc =>
    have h₁ : SplitsAt text (pos + 1) [] := h.tail
    have hround : regexRound (utf8 text) (pos, inClass) = .ok (.next (pos + 1, inClass)) := by
      rw [regexRound, charAt?_utf8_cons h, ok_bind]
      dsimp only
      rw [if_neg hc, if_pos rfl]
      rw [show pos + ('\\').utf8Size = pos + 1 from rfl, charAt?_utf8 h₁]
      rfl
    have hend : regexRound (utf8 text) (pos + 1, inClass) = .ok (.done (pos + 1, true)) := by
      rw [regexRound, charAt?_utf8 h₁]
      rfl
    rw [List.length_singleton] at hfuel
    rw [loop_of_next hround (by omega), loop_of_done hend (by omega), ok_bind, skipFlags_utf8 h₁]
    rfl
  | case4 inClass d rest hbreak hc =>
    have hround : regexRound (utf8 text) (pos, inClass) = .ok (.done (pos + 1, false)) := by
      rw [regexRound_escape inClass hc h, if_pos hbreak]
    rw [loop_of_done hround (Nat.zero_lt_of_lt hfuel)]
    rfl
  | case5 inClass d rest hbreak hc ih =>
    have hround : regexRound (utf8 text) (pos, inClass) =
        .ok (.next (pos + 1 + d.utf8Size, inClass)) := by
      rw [regexRound_escape inClass hc h, if_neg hbreak]
    have h₂ : SplitsAt text (pos + 1 + d.utf8Size) rest := h.tail.tail
    rw [List.length_cons, List.length_cons] at hfuel
    rw [loop_of_next hround (by omega), ih h₂ (by omega), byteLength_take_two_add, Nat.add_assoc,
      Nat.add_assoc, Nat.add_assoc]
  | case6 inClass rest hc hslash ih =>
    have hround := regexRound_plain inClass h hc hslash
    rw [if_pos rfl] at hround
    rw [List.length_cons] at hfuel
    rw [loop_of_next hround (by omega), ih h.tail (by omega), byteLength_take_one_add,
      Nat.add_assoc]
  | case7 inClass rest hc hslash hopen ih =>
    have hround := regexRound_plain inClass h hc hslash
    rw [if_neg hopen, if_pos rfl] at hround
    rw [List.length_cons] at hfuel
    rw [loop_of_next hround (by omega), ih h.tail (by omega), byteLength_take_one_add,
      Nat.add_assoc]
  | case8 inClass c rest hc hslash hopen hclose hend =>
    have hround := regexRound_plain inClass h hc hslash
    rw [if_neg hopen, if_neg hclose, if_pos hend] at hround
    rw [loop_of_done hround (Nat.zero_lt_of_lt hfuel), ok_bind, skipFlags_utf8 h.tail,
      byteLength_take_one_add, Nat.add_assoc]
  | case9 inClass c rest hc hslash hopen hclose hend ih =>
    have hround := regexRound_plain inClass h hc hslash
    rw [if_neg hopen, if_neg hclose, if_neg hend] at hround
    rw [List.length_cons] at hfuel
    rw [loop_of_next hround (by omega), ih h.tail (by omega), byteLength_take_one_add,
      Nat.add_assoc]

end Pieces

end InlineExpect.Comment.Bytewise
