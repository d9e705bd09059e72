import Mathlib
import InlineExpect.Comment.Scan

/-!
# Where comments stand

A comment that the scanner reports is a stretch of the text: it `OccursIn` the text at its start,
and the comments that follow start behind its end.  Both come from one fact about lexemes, that the
characters of a lexeme are those of the comment that it is reported as (`Lexeme.text_eq`).
-/

namespace InlineExpect.Comment

open Text

/-! ### The characters of a comment -/

/-- The body of a closed block comment is followed by a star and a slash. -/
lemma drop_blockLength {cs : List Char} {n : Nat} (h : blockLength cs = (n, true)) :
    ∃ rest, cs.drop n = '*' :: '/' :: rest := by
  induction cs generalizing n with
  | nil => simp [blockLength] at h
  | cons c cs ih =>
    unfold blockLength at h
    split at h
    · simp at h
    · rename_i rest heq
      obtain rfl : 0 = n := (Prod.mk.inj h).1
      exact ⟨rest, heq⟩
    · rename_i d ds _ heq
      obtain ⟨rfl, rfl⟩ := List.cons.inj heq
      obtain ⟨rfl, hclosed⟩ := Prod.mk.inj h
      obtain ⟨rest, hrest⟩ := ih (Prod.ext rfl hclosed)
      refine ⟨rest, ?_⟩
      rw [Nat.add_comm, List.drop_succ_cons, hrest]

namespace Lexeme

variable {σ : Type} {regexAllowed : Bool} {nesting : σ} {c : Char} {cs : List Char}

/-- Template text is code. -/
lemma kind_template [Nesting σ] : (template regexAllowed nesting cs).kind = .code := by
  unfold template
  split <;> rfl

/-- A closing brace and what it belongs to is code. -/
lemma kind_closeBrace [Nesting σ] : (closeBrace regexAllowed nesting cs).kind = .code := by
  unfold closeBrace
  split
  · exact kind_template
  · rfl

/-- The characters of a lexeme that begins with a slash are those of the comment that it is. -/
lemma text_slash_eq {form : Form} {body : List Char} (start : Nat) (firstOnLine : Bool)
    (h : (slash regexAllowed nesting cs).kind = .comment form body) :
    '/' :: cs.take (slash regexAllowed nesting cs).extra =
      text ⟨form, start, body, firstOnLine⟩ := by
  unfold slash at h ⊢
  split at h
  · rename_i rest
    obtain ⟨rfl, rfl⟩ := Kind.comment.inj h
    dsimp only
    rw [Nat.add_comm 1, List.take_succ_cons]
    rfl
  · rename_i rest
    obtain ⟨rfl, rfl⟩ := Kind.comment.inj h
    dsimp only
    obtain ⟨n, closed, hn⟩ : ∃ n closed, blockLength rest = (n, closed) := ⟨_, _, rfl⟩
    rw [hn]
    cases closed with
    | true =>
      obtain ⟨tail, htail⟩ := drop_blockLength hn
      have hend : (rest.drop n).take 2 = ['*', '/'] := by rw [htail]; rfl
      rw [if_pos rfl, Nat.add_assoc, Nat.add_comm 1, List.take_succ_cons, List.take_add, hend]
      rfl
    | false =>
      rw [if_neg Bool.false_ne_true, Nat.add_zero, Nat.add_comm 1, List.take_succ_cons]
      rfl
  · split at h <;> simp at h

/-- A slash begins a lexeme of its own kind. -/
lemma ofText_slash [Nesting σ] :
    ofText regexAllowed nesting '/' cs = slash regexAllowed nesting cs := by
  unfold ofText
  rw [if_neg (by decide), if_neg (by decide), if_pos rfl]

/-- A choice between two lexemes is not of a kind that neither is of. -/
lemma kind_ite_ne {p : Prop} [Decidable p] {x y : Lexeme σ} {k : Kind} (hx : x.kind ≠ k)
    (hy : y.kind ≠ k) : (if p then x else y).kind ≠ k := by
  by_cases h : p
  · rwa [if_pos h]
  · rwa [if_neg h]

/-- A lexeme that begins with another character than a slash is no comment. -/
lemma kind_ofText_ne [Nesting σ] {form : Form} {body : List Char} (hc : c ≠ '/') :
    (ofText regexAllowed nesting c cs).kind ≠ .comment form body := by
  have hcode : ∀ x : Lexeme σ, x.kind = .code → x.kind ≠ .comment form body := by
    intro x hx
    rw [hx]
    exact Kind.noConfusion
  unfold ofText
  rw [if_neg hc]
  refine kind_ite_ne Kind.noConfusion (kind_ite_ne Kind.noConfusion ?_)
  refine kind_ite_ne (hcode _ rfl) (kind_ite_ne (hcode _ kind_template) ?_)
  refine kind_ite_ne (hcode _ rfl) (kind_ite_ne (hcode _ kind_closeBrace) ?_)
  refine kind_ite_ne (hcode _ rfl) (kind_ite_ne (hcode _ rfl) ?_)
  exact kind_ite_ne (hcode _ rfl) (kind_ite_ne (hcode _ rfl) (hcode _ rfl))

/-- The characters of a lexeme that is a comment are those of the comment. -/
lemma text_eq [Nesting σ] {form : Form} {body : List Char} (start : Nat) (firstOnLine : Bool)
    (h : (ofText regexAllowed nesting c cs).kind = .comment form body) :
    c :: cs.take (ofText regexAllowed nesting c cs).extra =
      text ⟨form, start, body, firstOnLine⟩ := by
  by_cases hc : c = '/'
  · subst hc
    rw [ofText_slash] at h ⊢
    exact text_slash_eq start firstOnLine h
  · exact absurd h (kind_ofText_ne hc)

end Lexeme

/-! ### Comments as stretches of the text -/

section Scanning

variable {σ : Type} [Nesting σ] {s : ScanState σ} {cs : List Char} {c : Comment}

/-- A comment occurs in a text that begins at an offset if its characters are those of the text at
its start. -/
def OccursIn (c : Comment) (pos : Nat) (cs : List Char) : Prop :=
  ∃ before after, cs = before ++ (c.text ++ after) ∧ c.start = pos + byteLength before

/-- A comment of the rest of a text occurs in the text. -/
lemma OccursIn.append_left {pos : Nat} {cs ds : List Char}
    (h : c.OccursIn (pos + byteLength cs) ds) : c.OccursIn pos (cs ++ ds) := by
  obtain ⟨before, after, rfl, hstart⟩ := h
  refine ⟨cs ++ before, after, ?_, ?_⟩
  · rw [List.append_assoc]
  · rw [hstart, byteLength_append, Nat.add_assoc]

/-- A comment that occurs in a text starts in it. -/
lemma OccursIn.start_bounds {pos : Nat} (h : c.OccursIn pos cs) :
    pos ≤ c.start ∧ c.start ≤ pos + byteLength cs := by
  obtain ⟨before, after, rfl, hstart⟩ := h
  rw [byteLength_append]
  omega

/-- The body of a comment is a stretch of the comment. -/
lemma body_infix_text (c : Comment) : c.body <:+: c.text := by
  unfold text
  split
  · exact (List.suffix_append ['/', '/'] c.body).isInfix
  · exact List.infix_append ['/', '*'] c.body ['*', '/']
  · exact (List.suffix_append ['/', '*'] c.body).isInfix

/-- The body of a comment is a stretch of the text in which it occurs. -/
lemma OccursIn.body_infix_text {pos : Nat} (h : c.OccursIn pos cs) : c.body <:+: cs := by
  obtain ⟨before, after, rfl, -⟩ := h
  exact c.body_infix_text.trans (List.infix_append' before c.text after)

/-- The comments of a text are the comment that its first lexeme is and those of the rest. -/
lemma scanFrom_cons (s : ScanState σ) (c : Char) (cs : List Char) :
    let x := Lexeme.ofText s.regexAllowed s.nesting c cs
    scanFrom s (c :: cs) = (s.comment? x).toList ++
      scanFrom (s.after x (c :: cs.take x.extra)) (cs.drop x.extra) := by
  intro x
  rw [scanFrom]
  cases s.comment? (Lexeme.ofText s.regexAllowed s.nesting c cs) <;> rfl

/-- Where the first lexeme of a text is a comment, the comment starts where the text does. -/
lemma text_of_comment?_eq_some {d : Char} {ds : List Char}
    (h : s.comment? (Lexeme.ofText s.regexAllowed s.nesting d ds) = some c) :
    c.start = s.pos ∧
      d :: ds.take (Lexeme.ofText s.regexAllowed s.nesting d ds).extra = c.text := by
  unfold ScanState.comment? at h
  split at h
  · rename_i form body hkind
    obtain rfl := Option.some.inj h
    exact ⟨rfl, Lexeme.text_eq _ _ hkind⟩
  · simp at h

/-- The characters of the first lexeme of a text and those of the rest are those of the text. -/
lemma cons_take_append_drop (d : Char) (ds : List Char) (n : Nat) :
    (d :: ds.take n) ++ ds.drop n = d :: ds := by
  rw [List.cons_append, List.take_append_drop]

/-- The comments of a text occur in it. -/
lemma occursIn_of_mem_scanFrom (h : c ∈ scanFrom s cs) : c.OccursIn s.pos cs := by
  fun_induction scanFrom s cs with
  | case1 s => simp at h
  | case2 s d ds x comments comment hcomment ih =>
    obtain ⟨hstart, htext⟩ := text_of_comment?_eq_some hcomment
    rw [← cons_take_append_drop d ds x.extra]
    rcases List.mem_cons.mp h with rfl | h
    · exact ⟨[], ds.drop x.extra, by rw [← htext]; rfl, hstart⟩
    · exact (ih h).append_left
  | case3 s d ds x comments hcomment ih =>
    rw [← cons_take_append_drop d ds x.extra]
    exact (ih h).append_left

/-- The comments of a text start one behind the other. -/
lemma pairwise_scanFrom : (scanFrom s cs).Pairwise fun c d => c.start < d.start := by
  fun_induction scanFrom s cs with
  | case1 s => exact .nil
  | case2 s d ds x comments comment hcomment ih =>
    refine List.pairwise_cons.mpr ⟨fun c hc => ?_, ih⟩
    have hle := (occursIn_of_mem_scanFrom hc).start_bounds.1
    have hsize := d.utf8Size_pos
    have hpos : (s.after x (d :: ds.take x.extra)).pos =
        s.pos + (d.utf8Size + byteLength (ds.take x.extra)) := rfl
    rw [(text_of_comment?_eq_some hcomment).1]
    omega
  | case3 s d ds x comments hcomment ih => exact ih

end Scanning

/-! ### The comments of a whole text -/

/-- The comments of a text occur in it. -/
theorem occursIn_of_mem_scan {text : List Char} {c : Comment} (h : c ∈ scan text) :
    c.OccursIn 0 text := by
  have hrest := occursIn_of_mem_scanFrom h
  rw [← Nat.zero_add (byteLength _)] at hrest
  have := hrest.append_left
  rwa [List.take_append_drop] at this

/-- The comments of a text start one behind the other. -/
theorem pairwise_scan (text : List Char) :
    (scan text).Pairwise fun c d => c.start < d.start := pairwise_scanFrom

end InlineExpect.Comment
