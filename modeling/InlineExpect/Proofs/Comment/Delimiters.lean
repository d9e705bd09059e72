import Mathlib
import InlineExpect.Proofs.Comment.Terminated

/-!
# Where comments end

A comment stands in the text with its delimiters, and its form says what they are: a line comment
has no line break in it and ends before one or with the text, a block comment has no star and slash
in its body and ends with them, and only one that goes on to the end of the text may be unclosed
(`delimitedIn_of_mem_scan`).  No comment begins before the one in front of it has ended
(`pairwise_stop_scan`).
-/

namespace InlineExpect.Comment

open Text

/-! ### Block comments -/

section Block

variable {cs : List Char}

/-- A block comment that is not closed goes on to the end of the text. -/
lemma blockLength_of_open (h : (blockLength cs).2 = false) : (blockLength cs).1 = cs.length := by
  induction cs with
  | nil => rfl
  | cons c cs ih =>
    by_cases hend : c = '*' ∧ cs.head? = some '/'
    · obtain ⟨rfl, hslash⟩ := hend
      obtain ⟨rest, rfl⟩ := List.head?_eq_some_iff.mp hslash
      cases h
    · rw [blockLength_cons fun hstar hslash => hend ⟨hstar, hslash⟩] at h ⊢
      rw [ih h, List.length_cons, Nat.add_comm]

/-- The body of a block comment ends before the first star and slash. -/
lemma not_infix_take_blockLength (cs : List Char) :
    ¬ ['*', '/'] <:+: cs.take (blockLength cs).1 := by
  induction cs with
  | nil => decide
  | cons c cs ih =>
    by_cases hend : c = '*' ∧ cs.head? = some '/'
    · obtain ⟨rfl, hslash⟩ := hend
      obtain ⟨rest, rfl⟩ := List.head?_eq_some_iff.mp hslash
      change ¬ ['*', '/'] <:+: []
      decide
    · rw [blockLength_cons fun hstar hslash => hend ⟨hstar, hslash⟩, Nat.add_comm,
        List.take_succ_cons, List.infix_cons_iff]
      rintro (hbegins | hinfix)
      · obtain ⟨hstar, hslash⟩ := List.cons_prefix_cons.mp hbegins
        obtain ⟨rest, rfl⟩ := hslash.trans (List.take_prefix _ _)
        exact hend ⟨hstar.symm, rfl⟩
      · exact ih hinfix

end Block

/-! ### Delimiters -/

/-- A comment is delimited, when a text follows it, as its form has it. -/
def Delimited (k : Comment) (after : List Char) : Prop :=
  match k.form with
  | .line => (∀ d ∈ k.body, isLineBreak d = false) ∧ ∀ d ∈ after.head?, isLineBreak d = true
  | .block true => ¬ ['*', '/'] <:+: k.body
  | .block false => ¬ ['*', '/'] <:+: k.body ∧ after = []

/-- A comment is delimited in a text that begins at an offset, if it stands there at its start, and
is delimited from what follows it. -/
def DelimitedIn (k : Comment) (pos : Nat) (cs : List Char) : Prop :=
  ∃ before after, cs = before ++ (k.text ++ after) ∧ k.start = pos + byteLength before ∧
    k.Delimited after

/-- A comment that is delimited in the rest of a text is delimited in the text. -/
lemma DelimitedIn.append_left {k : Comment} {pos : Nat} {cs ds : List Char}
    (h : k.DelimitedIn (pos + byteLength cs) ds) : k.DelimitedIn pos (cs ++ ds) := by
  obtain ⟨before, after, rfl, hstart, hafter⟩ := h
  refine ⟨cs ++ before, after, ?_, ?_, hafter⟩
  · rw [List.append_assoc]
  · rw [hstart, byteLength_append, Nat.add_assoc]

/-- What begins with a slash and is a comment is delimited. -/
lemma delimited_slash {σ : Type} {allowed : Bool} {nesting : σ} {cs body : List Char} {form : Form}
    (start : Nat) (first : Bool) (h : (Lexeme.slash allowed nesting cs).kind = .comment form body) :
    Delimited ⟨form, start, body, first⟩ (cs.drop (Lexeme.slash allowed nesting cs).extra) := by
  unfold Lexeme.slash at h ⊢
  split at h
  · rename_i rest
    obtain ⟨rfl, rfl⟩ := Lexeme.Kind.comment.inj h
    dsimp only
    rw [Nat.add_comm, List.drop_succ_cons]
    exact ⟨fun d hd => isLineBreak_of_mem_take_lineLength hd, head?_drop_lineLength rest⟩
  · rename_i rest
    obtain ⟨rfl, rfl⟩ := Lexeme.Kind.comment.inj h
    dsimp only
    cases hclosed : (blockLength rest).2 with
    | true => exact not_infix_take_blockLength rest
    | false =>
      refine ⟨not_infix_take_blockLength rest, ?_⟩
      rw [if_neg Bool.false_ne_true, Nat.add_zero, Nat.add_comm, List.drop_succ_cons,
        blockLength_of_open hclosed, List.drop_length]
  · split at h <;> cases h

section Scanning

variable {σ : Type} [Nesting σ] {s : ScanState σ} {cs : List Char} {k : Comment}

/-- A lexeme that is a comment is delimited. -/
lemma delimited_of_comment?_eq_some {c : Char}
    (h : s.comment? (Lexeme.ofText s.regexAllowed s.nesting c cs) = some k) :
    k.Delimited (cs.drop (Lexeme.ofText s.regexAllowed s.nesting c cs).extra) := by
  unfold ScanState.comment? at h
  split at h
  · rename_i form body hkind
    obtain rfl := Option.some.inj h
    by_cases hc : c = '/'
    · subst hc
      rw [Lexeme.ofText_slash] at hkind ⊢
      exact delimited_slash _ _ hkind
    · exact absurd hkind (Lexeme.kind_ofText_ne hc)
  · cases h

/-- The comments of what is left of a text are delimited in it. -/
lemma delimitedIn_of_mem_scanFrom (h : k ∈ scanFrom s cs) : k.DelimitedIn s.pos cs := by
  fun_induction scanFrom s cs with
  | case1 s => cases h
  | case2 s d ds x comments comment hcomment ih =>
    obtain ⟨hstart, htext⟩ := text_of_comment?_eq_some hcomment
    rw [← cons_take_append_drop d ds x.extra]
    rcases List.mem_cons.mp h with rfl | h
    · exact ⟨[], _, by rw [← htext]; rfl, hstart, delimited_of_comment?_eq_some hcomment⟩
    · exact (ih h).append_left
  | case3 s d ds x comments hcomment ih =>
    rw [← cons_take_append_drop d ds x.extra]
    exact (ih h).append_left

/-- A comment of what is left of a text begins behind the end of those before it. -/
lemma pairwise_stop_scanFrom : (scanFrom s cs).Pairwise fun c d => c.span.stop ≤ d.span.start := by
  fun_induction scanFrom s cs with
  | case1 s => exact .nil
  | case2 s d ds x comments comment hcomment ih =>
    obtain ⟨hstart, htext⟩ := text_of_comment?_eq_some hcomment
    refine List.pairwise_cons.mpr ⟨?_, ih⟩
    intro c hc
    have hle := (occursIn_of_mem_scanFrom hc).start_bounds.1
    have hstop : comment.span.stop = s.pos + byteLength (d :: ds.take x.extra) := by
      rw [htext, ← hstart]
      rfl
    rw [hstop]
    exact hle
  | case3 s d ds x comments hcomment ih => exact ih

end Scanning

/-! ### Whole texts -/

/-- The comments of a text are delimited in it. -/
theorem delimitedIn_of_mem_scan {text : List Char} {k : Comment} (h : k ∈ scan text) :
    k.DelimitedIn 0 text := by
  have hrest := delimitedIn_of_mem_scanFrom h
  rw [← Nat.zero_add (byteLength _)] at hrest
  have htext := hrest.append_left
  rwa [List.take_append_drop] at htext

/-- A comment of a text begins behind the end of those before it. -/
theorem pairwise_stop_scan (text : List Char) :
    (scan text).Pairwise fun c d => c.span.stop ≤ d.span.start := pairwise_stop_scanFrom

end InlineExpect.Comment
