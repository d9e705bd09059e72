import Mathlib
import InlineExpect.Proofs.Comment.Lookahead

/-!
# Rewording a line comment

Whatever a line comment says, it says to the reader only.  If its body is replaced by any other text
without line breaks, the scanner finds the same comments before it, the comment with its new body at
the same place, and the same comments after it, shifted by the difference of the lengths
(`scan_reword`).

Two scans are compared.  Up to the comment they read the same lexemes, since the text that decides
what a lexeme is goes at most one character beyond it (`Lexeme.recurs_ofText`), and both texts go on
with two slashes.  Behind the comment both read what is left of the text, in states that differ only
in where they are (`forall₂_scanFrom_shifted`).
-/

namespace InlineExpect.Comment

open Text

/-! ### Comments that have moved -/

/-- The comment `d` is the comment `c`, shifted as it is when a text before it that had `old` bytes
has `new` bytes. -/
structure ShiftedBy (old new : Nat) (c d : Comment) : Prop where
  form_eq : d.form = c.form
  body_eq : d.body = c.body
  firstOnLine_eq : d.firstOnLine = c.firstOnLine
  start_eq : d.start + old = c.start + new

/-- One of the comments has been given another body, and those behind it are shifted by the
difference of the lengths. -/
def Reworded (c : Comment) (body : List Char) (comments comments' : List Comment) : Prop :=
  ∃ earlier later later', comments = earlier ++ c :: later ∧
    comments' = earlier ++ { c with body := body } :: later' ∧
    List.Forall₂ (ShiftedBy (byteLength c.body) (byteLength body)) later later'

/-- More comments before a reworded one do not matter. -/
lemma Reworded.append_left {c : Comment} {body : List Char} {comments comments' : List Comment}
    (h : Reworded c body comments comments') (before : List Comment) :
    Reworded c body (before ++ comments) (before ++ comments') := by
  obtain ⟨earlier, later, later', rfl, rfl, hlater⟩ := h
  refine ⟨before ++ earlier, later, later', ?_, ?_, hlater⟩
  · rw [List.append_assoc]
  · rw [List.append_assoc]

/-- How a text begins does not depend on what follows its beginning. -/
lemma take_append_eq_take_append {front : List Char} {n : Nat} (h : n ≤ front.length)
    (cs cs' : List Char) : (front ++ cs).take n = (front ++ cs').take n := by
  rw [List.take_append_of_le_length h, List.take_append_of_le_length h]

section Scanning

variable {σ : Type} [Nesting σ] {s : ScanState σ} {a b c body : List Char} {k : Comment}

/-! ### Behind the comment -/

/-- A scan that begins at another offset finds the same comments, shifted. -/
theorem forall₂_scanFrom_shifted {old new : Nat} (pos : Nat) (s : ScanState σ) (cs : List Char)
    (h : pos + old = s.pos + new) :
    List.Forall₂ (ShiftedBy old new) (scanFrom s cs) (scanFrom { s with pos := pos } cs) := by
  match cs with
  | [] =>
    rw [scanFrom, scanFrom]
    exact .nil
  | d :: ds =>
    set x := Lexeme.ofText s.regexAllowed s.nesting d ds with hx
    have hpos : pos + byteLength (d :: ds.take x.extra) + old =
        (s.after x (d :: ds.take x.extra)).pos + new := by
      dsimp only [ScanState.after]
      omega
    have hrest := forall₂_scanFrom_shifted _ (s.after x (d :: ds.take x.extra)) (ds.drop x.extra)
      hpos
    have hfirst : List.Forall₂ (ShiftedBy old new) (s.comment? x).toList
        (ScanState.comment? { s with pos := pos } x).toList := by
      unfold ScanState.comment?
      cases x.kind with
      | comment form body => exact .cons ⟨rfl, rfl, rfl, h⟩ .nil
      | _ => exact .nil
    rw [scanFrom_cons, scanFrom_cons, ← hx]
    exact List.rel_append hfirst hrest
termination_by cs.length
decreasing_by simp only [List.length_cons, List.length_drop]; omega

/-! ### The comment -/

/-- The comment that two slashes begin has the rest of their line for its body. -/
lemma eq_of_mem_scanFrom_slashes {cs : List Char} (h : k ∈ scanFrom s ('/' :: '/' :: cs))
    (hstart : k.start = s.pos) :
    k = ⟨.line, s.pos, cs.take (lineLength cs), !s.lineHasContent⟩ := by
  have hlater : (scanFrom s ('/' :: '/' :: cs)).Pairwise fun c d => c.start < d.start :=
    pairwise_scanFrom
  rw [scanFrom_cons, Lexeme.ofText_slash, Lexeme.slash_line] at h hlater
  rcases List.mem_cons.mp h with hfirst | hmem
  · exact hfirst
  · have hlt := (List.pairwise_cons.mp hlater).1 k hmem
    exact absurd hstart (Nat.ne_of_gt hlt)

/-- The comment at the beginning of a text is reworded. -/
lemma reworded_scanFrom_slashes (h : k ∈ scanFrom s ('/' :: '/' :: (b ++ c)))
    (hstart : k.start = s.pos) (hbody : k.body = b) (hnew : ∀ d ∈ body, isLineBreak d = false) :
    Reworded k body (scanFrom s ('/' :: '/' :: (b ++ c)))
      (scanFrom s ('/' :: '/' :: (body ++ c))) := by
  have hk := eq_of_mem_scanFrom_slashes h hstart
  have htake : (b ++ c).take (lineLength (b ++ c)) = b := by
    rw [hk] at hbody
    exact hbody
  have hdrop : (b ++ c).drop (lineLength (b ++ c)) = c := by
    have hsplit := List.take_append_drop (lineLength (b ++ c)) (b ++ c)
    rw [htake] at hsplit
    exact List.append_cancel_left hsplit
  have hb : ∀ d ∈ b, isLineBreak d = false := by
    intro d hd
    rw [← htake] at hd
    exact isLineBreak_of_mem_take_lineLength hd
  have hc : ∀ d ∈ c.head?, isLineBreak d = true := by
    have hhead := head?_drop_lineLength (b ++ c)
    rwa [hdrop] at hhead
  rw [htake] at hk
  rw [scanFrom_lineComment_of_end hb hc, scanFrom_lineComment_of_end hnew hc, hk]
  refine ⟨[], _, _, rfl, rfl, ?_⟩
  apply forall₂_scanFrom_shifted
  simp only [byteLength_cons]
  omega

/-! ### Before the comment -/

/-- More characters than those before a place have more bytes. -/
lemma byteLength_lt_of_length_lt {d : Char} {cs : List Char} {n : Nat} (h : a.length < n) :
    byteLength a < byteLength ((a ++ d :: cs).take n) := by
  obtain ⟨m, rfl⟩ := Nat.exists_eq_add_of_lt h
  have hpos := d.utf8Size_pos
  rw [Nat.add_assoc, List.take_length_add_append, List.take_succ_cons, byteLength_append,
    byteLength_cons]
  omega

/-- A lexeme that ends before a slash does not depend on what follows the slash. -/
lemma ofText_append_slash {allowed : Bool} {nesting : σ} {d : Char} {cs : List Char} {x : Lexeme σ}
    (hx : Lexeme.ofText allowed nesting d (a ++ '/' :: cs) = x) (h : x.extra ≤ a.length)
    (cs' : List Char) : Lexeme.ofText allowed nesting d (a ++ '/' :: cs') = x := by
  have hfront : x.extra + 1 ≤ (a ++ ['/']).length := by
    rw [List.length_append]
    exact Nat.succ_le_succ h
  subst hx
  apply Lexeme.recurs_ofText
  have htake := take_append_eq_take_append hfront cs cs'
  rwa [← List.append_cons, ← List.append_cons] at htake

/-- A comment of the rest of a text is reworded. -/
theorem reworded_scanFrom {s : ScanState σ} {a : List Char}
    (h : k ∈ scanFrom s (a ++ '/' :: '/' :: (b ++ c))) (hstart : k.start = s.pos + byteLength a)
    (hbody : k.body = b) (hnew : ∀ d ∈ body, isLineBreak d = false) :
    Reworded k body (scanFrom s (a ++ '/' :: '/' :: (b ++ c)))
      (scanFrom s (a ++ '/' :: '/' :: (body ++ c))) := by
  match a with
  | [] => exact reworded_scanFrom_slashes h hstart hbody hnew
  | d :: ds =>
    obtain ⟨x, hx⟩ : ∃ x, Lexeme.ofText s.regexAllowed s.nesting d (ds ++ '/' :: '/' :: (b ++ c)) =
      x := ⟨_, rfl⟩
    have hsize := d.utf8Size_pos
    rw [byteLength_cons] at hstart
    rw [List.cons_append, scanFrom_cons, hx] at h
    -- The first lexeme starts before the comment, and so it has to end before it.
    have hmem : k ∈ scanFrom (s.after x (d :: (ds ++ '/' :: '/' :: (b ++ c)).take x.extra))
        ((ds ++ '/' :: '/' :: (b ++ c)).drop x.extra) := by
      rcases List.mem_append.mp h with hfirst | hlater
      · rw [Option.mem_toList, ← hx] at hfirst
        have := (text_of_comment?_eq_some hfirst).1
        omega
      · exact hlater
    have hextra : x.extra ≤ ds.length := by
      by_contra hlt
      have hlonger : byteLength ds < byteLength ((ds ++ '/' :: '/' :: (b ++ c)).take x.extra) :=
        byteLength_lt_of_length_lt (Nat.lt_of_not_le hlt)
      have hle := (occursIn_of_mem_scanFrom hmem).start_bounds.1
      dsimp only [ScanState.after] at hle
      rw [byteLength_cons] at hle
      omega
    rw [List.cons_append, List.cons_append, scanFrom_cons, scanFrom_cons, hx,
      ofText_append_slash hx hextra]
    apply Reworded.append_left
    rw [List.take_append_of_le_length hextra, List.drop_append_of_le_length hextra] at hmem ⊢
    rw [List.take_append_of_le_length hextra, List.drop_append_of_le_length hextra]
    apply reworded_scanFrom hmem _ hbody hnew
    have hlength := byteLength_take_add_drop x.extra ds
    dsimp only [ScanState.after]
    rw [byteLength_cons]
    omega
termination_by a.length
decreasing_by simp only [List.length_cons, List.length_drop]; omega

end Scanning

/-! ### Whole texts -/

variable {a b c body : List Char} {k : Comment}

/-- A line comment that covers two slashes and some characters behind them has these characters for
its body. -/
lemma body_eq_of_span_eq (h : k ∈ scan (a ++ '/' :: '/' :: (b ++ c))) (hline : k.isLine = true)
    (hspan : k.span = ⟨byteLength a, byteLength ('/' :: '/' :: b)⟩) : k.body = b := by
  obtain ⟨before, after, htext, hstart⟩ := occursIn_of_mem_scan h
  obtain ⟨hbefore, hlength⟩ := Span.mk.inj hspan
  have hform : k.form = .line := by simpa [isLine] using hline
  rw [Nat.zero_add] at hstart
  obtain ⟨-, hrest⟩ := append_inj_of_byteLength_eq htext (hbefore.symm.trans hstart)
  have hcovered : ('/' :: '/' :: b) ++ c = k.text ++ after := hrest
  obtain ⟨hbody, -⟩ := append_inj_of_byteLength_eq hcovered hlength.symm
  rw [text, hform] at hbody
  exact ((List.cons.inj (List.cons.inj hbody).2).2).symm

/-- The interpreter line of a text ends before the comments of the text. -/
lemma shebangLength_le_length {d : Char} {cs : List Char} (h : k ∈ scan (a ++ d :: cs))
    (hstart : k.start = byteLength a) : shebangLength (a ++ d :: cs) ≤ a.length := by
  have hle := (occursIn_of_mem_scanFrom h).start_bounds.1
  rw [hstart] at hle
  have hsplit := List.take_append_drop (shebangLength (a ++ d :: cs)) (a ++ d :: cs)
  have hlength := (prefix_of_byteLength_le hsplit hle).length_le
  rw [List.length_take, List.length_append, List.length_cons] at hlength
  omega

/-- A text whose interpreter line ends before two slashes has the same interpreter line, whatever
follows the slashes. -/
lemma shebangLength_append_slashes {cs : List Char}
    (h : shebangLength (a ++ '/' :: '/' :: cs) ≤ a.length) (cs' : List Char) :
    shebangLength (a ++ '/' :: '/' :: cs') = shebangLength (a ++ '/' :: '/' :: cs) := by
  apply shebangLength_eq_of_take_eq
  have hfront : shebangLength (a ++ '/' :: '/' :: cs) + 2 ≤ (a ++ ['/', '/']).length := by
    rw [List.length_append]
    exact Nat.add_le_add_right h 2
  have htake := take_append_eq_take_append hfront cs cs'
  rwa [List.append_assoc, List.append_assoc] at htake

/-- The comments of a text whose interpreter line ends in its first part. -/
lemma scan_append (h : shebangLength (a ++ b) ≤ a.length) :
    scan (a ++ b) = scanFrom ⟨byteLength (a.take (shebangLength (a ++ b))),
      decide (0 < shebangLength (a ++ b)), true, (Nesting.none : DepthCounter)⟩
      (a.drop (shebangLength (a ++ b)) ++ b) := by
  rw [scan, scanWith, List.take_append_of_le_length h, List.drop_append_of_le_length h]

/-- What a line comment says does not matter.  If a text has a line comment that covers two slashes
and the characters `b`, and the text says `body` in their place, without line breaks, then the
comments before it stay, it covers the two slashes and its new body at the same place, and the
comments behind it are shifted by the difference of the lengths. -/
theorem scan_reword (h : k ∈ scan (a ++ '/' :: '/' :: (b ++ c))) (hline : k.isLine = true)
    (hspan : k.span = ⟨byteLength a, byteLength ('/' :: '/' :: b)⟩)
    (hnew : ∀ d ∈ body, isLineBreak d = false) :
    Reworded k body (scan (a ++ '/' :: '/' :: (b ++ c)))
        (scan (a ++ '/' :: '/' :: (body ++ c))) ∧
      ({ k with body := body } : Comment).isLine = true ∧
      ({ k with body := body } : Comment).span =
        ⟨byteLength a, byteLength ('/' :: '/' :: body)⟩ := by
  have hbody := body_eq_of_span_eq h hline hspan
  have hstart : k.start = byteLength a := (Span.mk.inj hspan).1
  have hform : k.form = .line := by simpa [isLine] using hline
  refine ⟨?_, hline, ?_⟩
  · have hshebang := shebangLength_le_length h hstart
    have hshebang' := shebangLength_append_slashes hshebang (body ++ c)
    rw [scan_append hshebang] at h ⊢
    rw [scan_append (hshebang'.le.trans hshebang), hshebang']
    apply reworded_scanFrom h _ hbody hnew
    rw [hstart]
    exact (byteLength_take_add_drop _ a).symm
  · rw [span, text, hstart, hform]

/-- A text with an interpreter line, in which a substitution is open. -/
def sampleFront : List Char := "#!/bin/x\n/* é */ f(\x60$\x7b \x7b\x7d ".toList

/-- The substitution is closed on the next line, so that template text goes on. -/
def sampleBack : List Char := "\n\x7d // no comment\n\x60) /* unclosed".toList

/-- A text in which every delimiter of the language stands. -/
def sampleDelimiters : List Char := "*/ ' \" \x60 $\x7b \x7d \\ é".toList

/-- A comment in a substitution is given the delimiters for its body. -/
theorem scan_reword_delimiters :
    let k : Comment := ⟨.line, 27, " plain".toList, false⟩
    k ∈ scan (sampleFront ++ '/' :: '/' :: (" plain".toList ++ sampleBack)) ∧ k.isLine = true ∧
      k.span = ⟨byteLength sampleFront, byteLength ('/' :: '/' :: " plain".toList)⟩ ∧
      (∀ d ∈ sampleDelimiters, isLineBreak d = false) ∧
      Reworded k sampleDelimiters
        (scan (sampleFront ++ '/' :: '/' :: (" plain".toList ++ sampleBack)))
        (scan (sampleFront ++ '/' :: '/' :: (sampleDelimiters ++ sampleBack))) := by
  intro k
  have hmem : k ∈ scan (sampleFront ++ '/' :: '/' :: (" plain".toList ++ sampleBack)) := by
    decide +kernel
  have hspan : k.span = ⟨byteLength sampleFront, byteLength ('/' :: '/' :: " plain".toList)⟩ := by
    decide +kernel
  have hall : (sampleDelimiters.all fun d => !isLineBreak d) = true := by decide +kernel
  have hnew : ∀ d ∈ sampleDelimiters, isLineBreak d = false := by simpa using hall
  exact ⟨hmem, rfl, hspan, hnew, (scan_reword hmem rfl hspan hnew).1⟩

end InlineExpect.Comment
