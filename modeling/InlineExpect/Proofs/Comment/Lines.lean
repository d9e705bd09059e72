import Mathlib
import InlineExpect.Proofs.Comment.Positions
import InlineExpect.Proofs.Text.LineStarts

/-!
# Line comments and their lines

A line comment goes on to the end of its line, so that whatever the scanner finds after it starts on
a later line.  `Text.lineStartsFrom` counts lines in the same way as the scanner ends them, apart
from CR LF: a line starts behind the LF, which no comment starts with.  So between the starts of a
line comment and of a later comment a line starts (`Comment.pairwise_lineStart_scan`), and no two
line comments are on the same line (`Comment.pairwise_line_scan`).
-/

namespace InlineExpect.Comment

open Text

/-! ### What follows a line comment -/

/-- A line ends before a line break. -/
lemma head?_drop_lineLength (cs : List Char) :
    ∀ c ∈ (cs.drop (lineLength cs)).head?, isLineBreak c = true := by
  induction cs with
  | nil => simp
  | cons d ds ih =>
    unfold lineLength
    by_cases hd : isLineBreak d = true
    · rw [if_pos hd]
      intro c hc
      obtain rfl : d = c := by simpa using hc
      exact hd
    · rw [if_neg hd, Nat.add_comm, List.drop_succ_cons]
      exact ih

/-- A line comment is followed by a line break or by nothing. -/
lemma Lexeme.head?_drop_of_line {σ : Type} [Nesting σ] {regexAllowed : Bool} {nesting : σ}
    {c : Char} {cs body : List Char}
    (h : (Lexeme.ofText regexAllowed nesting c cs).kind = .comment .line body) :
    ∀ d ∈ (cs.drop (Lexeme.ofText regexAllowed nesting c cs).extra).head?,
      isLineBreak d = true := by
  by_cases hc : c = '/'
  · subst hc
    rw [ofText_slash] at h ⊢
    unfold slash at h ⊢
    split at h
    · rename_i rest
      dsimp only
      rw [Nat.add_comm, List.drop_succ_cons]
      exact head?_drop_lineLength rest
    · simp at h
    · split at h <;> simp at h
  · exact absurd h (kind_ofText_ne hc)

/-- A line comment has no line break in it. -/
lemma Lexeme.isLineBreak_of_mem_body {σ : Type} [Nesting σ] {regexAllowed : Bool} {nesting : σ}
    {c : Char} {cs body : List Char}
    (h : (Lexeme.ofText regexAllowed nesting c cs).kind = .comment .line body) :
    ∀ d ∈ body, isLineBreak d = false := by
  by_cases hc : c = '/'
  · subst hc
    rw [ofText_slash] at h
    unfold slash at h
    split at h
    · obtain ⟨-, rfl⟩ := Kind.comment.inj h
      exact fun d hd => isLineBreak_of_mem_take_lineLength hd
    · simp at h
    · split at h <;> simp at h
  · exact absurd h (kind_ofText_ne hc)

/-- A comment begins with a slash. -/
lemma exists_text_eq_cons (c : Comment) : ∃ cs, c.text = '/' :: cs := by
  unfold text
  split
  · exact ⟨_, rfl⟩
  · exact ⟨_, rfl⟩
  · exact ⟨_, rfl⟩

/-- A line starts before a comment in a text that begins with a line break. -/
lemma OccursIn.exists_lineStart {c : Comment} {pos : Nat} {cs : List Char} (h : c.OccursIn pos cs)
    (hhead : ∀ d ∈ cs.head?, isLineBreak d = true) :
    ∃ p, LineStartsAt pos cs p ∧ pos < p ∧ p ≤ c.start := by
  obtain ⟨before, after, rfl, hstart⟩ := h
  obtain ⟨tail, htail⟩ := c.exists_text_eq_cons
  rw [htail, List.cons_append] at hhead ⊢
  cases before with
  | nil => exact absurd (hhead '/' rfl) (by decide)
  | cons d ds =>
    have hd : isLineBreak d = true := hhead d rfl
    have hpos := d.utf8Size_pos
    rw [byteLength_cons] at hstart
    by_cases hcrlf : d = '\r' ∧ (ds ++ '/' :: (tail ++ after)).head? = some '\n'
    · -- The line ends with the LF, which belongs to what stands before the comment.
      obtain ⟨rfl, hlf⟩ := hcrlf
      cases ds with
      | nil => simp at hlf
      | cons e es =>
        obtain rfl : e = '\n' := by simpa using hlf
        have hends : EndsLine ['\r', '\n'] (es ++ '/' :: (tail ++ after)) :=
          ⟨'\n', rfl, rfl, fun h => absurd h.1 (by decide)⟩
        have hsize : byteLength ['\r', '\n'] = 2 := rfl
        have hsize' : byteLength ('\n' :: es) = 1 + byteLength es := rfl
        have hcr : Char.utf8Size '\r' = 1 := rfl
        refine ⟨pos + 2, ⟨['\r', '\n'], _, rfl, hends, by rw [hsize]⟩, by omega, by omega⟩
    · have hends : EndsLine [d] (ds ++ '/' :: (tail ++ after)) :=
        endsLine_singleton_iff.mpr ⟨hd, hcrlf⟩
      exact ⟨pos + d.utf8Size, ⟨[d], _, rfl, hends, rfl⟩, by omega, by omega⟩

/-! ### Lines between comments -/

/-- A lexeme that is reported as a line comment is one. -/
lemma kind_of_comment?_eq_some {σ : Type} {s : ScanState σ} {x : Lexeme σ} {c : Comment}
    (h : s.comment? x = some c) (hc : c.isLine = true) : x.kind = .comment .line c.body := by
  unfold ScanState.comment? at h
  split at h
  · rename_i form body hkind
    obtain rfl := Option.some.inj h
    obtain rfl : form = .line := by simpa [isLine] using hc
    exact hkind
  · simp at h

section Scanning

variable {σ : Type} [Nesting σ] {s : ScanState σ} {cs : List Char}

/-- Between the starts of a line comment and of a later comment a line starts. -/
lemma pairwise_lineStart_scanFrom : (scanFrom s cs).Pairwise fun c d =>
    c.isLine = true → ∃ p, LineStartsAt s.pos cs p ∧ c.start < p ∧ p ≤ d.start := by
  fun_induction scanFrom s cs with
  | case1 s => exact .nil
  | case2 s d ds x comments comment hcomment ih =>
    have hsplit : (d :: ds.take x.extra) ++ ds.drop x.extra = d :: ds :=
      cons_take_append_drop d ds x.extra
    have hstart : comment.start = s.pos := (text_of_comment?_eq_some hcomment).1
    refine List.pairwise_cons.mpr ⟨fun e he hline => ?_, ih.imp fun {c e} h hline => ?_⟩
    · have hhead := Lexeme.head?_drop_of_line (kind_of_comment?_eq_some hcomment hline)
      obtain ⟨p, hp, hlt, hle⟩ := (occursIn_of_mem_scanFrom he).exists_lineStart hhead
      have hpos : (s.after x (d :: ds.take x.extra)).pos =
          s.pos + byteLength (d :: ds.take x.extra) := rfl
      exact ⟨p, hsplit ▸ hp.append_left, by omega, hle⟩
    · obtain ⟨p, hp, hlt, hle⟩ := h hline
      exact ⟨p, hsplit ▸ hp.append_left, hlt, hle⟩
  | case3 s d ds x comments hcomment ih =>
    have hsplit : (d :: ds.take x.extra) ++ ds.drop x.extra = d :: ds :=
      cons_take_append_drop d ds x.extra
    refine ih.imp fun {c e} h hline => ?_
    obtain ⟨p, hp, hlt, hle⟩ := h hline
    exact ⟨p, hsplit ▸ hp.append_left, hlt, hle⟩

/-- No line comment of a text has a line break in it. -/
lemma isLineBreak_of_mem_body {c : Comment} (h : c ∈ scanFrom s cs) (hc : c.isLine = true) :
    ∀ d ∈ c.body, isLineBreak d = false := by
  fun_induction scanFrom s cs with
  | case1 s => simp at h
  | case2 s d ds x comments comment hcomment ih =>
    rcases List.mem_cons.mp h with rfl | h
    · exact Lexeme.isLineBreak_of_mem_body (kind_of_comment?_eq_some hcomment hc)
    · exact ih h
  | case3 s d ds x comments hcomment ih => exact ih h

end Scanning

/-- Between the starts of a line comment and of a later comment of a text a line starts. -/
lemma pairwise_lineStart_scan (text : List Char) : (scan text).Pairwise fun c d =>
    c.isLine = true → ∃ p, LineStartsAt 0 text p ∧ c.start < p ∧ p ≤ d.start := by
  refine pairwise_lineStart_scanFrom.imp fun {c d} h hline => ?_
  obtain ⟨p, hp, hlt, hle⟩ := h hline
  dsimp only at hp
  rw [← Nat.zero_add (byteLength _)] at hp
  have htext := hp.append_left
  rw [List.take_append_drop] at htext
  exact ⟨p, htext, hlt, hle⟩

/-- A comment that follows a line comment of a text starts on a later line. -/
theorem pairwise_line_scan (text : List Char) : (scan text).Pairwise fun c d =>
    c.isLine = true → ∀ l m, (LineIndex.ofText text).lineOf c.start = .ok l →
      (LineIndex.ofText text).lineOf d.start = .ok m → l < m := by
  refine (pairwise_lineStart_scan text).imp fun {c d} h hline l m hl hm => ?_
  obtain ⟨p, hp, hlt, hle⟩ := h hline
  have hcl := LineIndex.contains_of_lineOf_eq_ok hl
  have hdm := LineIndex.contains_of_lineOf_eq_ok hm
  exact hcl.lt_of_lineStartsAt hdm hp hlt hle

/-- A comment of a text starts on a line of the text. -/
lemma exists_lineOf_of_mem_scan {text : List Char} {c : Comment} (h : c ∈ scan text) :
    ∃ line, (LineIndex.ofText text).lineOf c.start = .ok line := by
  have hbounds := (occursIn_of_mem_scan h).start_bounds.2
  rw [Nat.zero_add] at hbounds
  refine LineIndex.exists_lineOf ?_
  rwa [LineIndex.size_ofText]

end InlineExpect.Comment
