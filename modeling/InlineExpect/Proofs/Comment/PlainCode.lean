import Mathlib
import InlineExpect.Proofs.Comment.Scanning

/-!
# Plain code

Code in which no string, template, comment or regular expression can begin has no comment in it,
whatever else it has: unbalanced brackets, halves of operators, control characters.  The scanner
comes out of it where it ends, at a slash or at the end of the line, and it has no substitution open
that a closing brace of a later line could end (`exists_scanFrom_plain`).  Whether it takes a slash
for the beginning of a regular expression is left open, since only comments are to follow.
-/

namespace InlineExpect.Comment

open Text

/-- A character that neither ends a line nor begins a string, a template, a comment or a regular
expression. -/
def IsPlain (c : Char) : Prop := isLineBreak c = false ∧ c ∉ ['/', '\x27', '\x22', '\x60']

instance : DecidablePred IsPlain := fun _ => inferInstanceAs (Decidable (_ ∧ _))

/-- What follows plain code: a slash, a line break or nothing. -/
def EndsPlain (tail : List Char) : Prop := ∀ d ∈ tail.head?, d = '/' ∨ isLineBreak d = true

variable {allowed : Bool} {nesting : DepthCounter} {c : Char} {cs tail : List Char}

/-- A line break or a slash is not part of a word, and it is no sign. -/
lemma EndsPlain.head (h : EndsPlain tail) :
    ∀ d ∈ tail.head?, isWordPart d = false ∧ d ≠ '+' ∧ d ≠ '-' := by
  intro d hd
  rcases h d hd with rfl | hbreak
  · decide
  · refine ⟨isWordPart_of_isLineBreak hbreak, ?_, ?_⟩
    · rintro rfl
      exact absurd hbreak (by decide)
    · rintro rfl
      exact absurd hbreak (by decide)

/-- A word does not go on behind plain code. -/
lemma wordLength_append_le (h : EndsPlain tail) (cs : List Char) :
    wordLength (cs ++ tail) ≤ cs.length := by
  induction cs with
  | nil =>
    cases tail with
    | nil => exact le_rfl
    | cons d ds =>
      rw [List.nil_append, wordLength, (h.head d rfl).1, if_neg Bool.false_ne_true]
      exact le_rfl
  | cons c cs ih =>
    rw [List.cons_append, wordLength, List.length_cons]
    by_cases hc : isWordPart c = true
    · rw [if_pos hc]
      omega
    · rw [if_neg hc]
      exact Nat.zero_le _

namespace Lexeme

/-- A lexeme is read from plain code if it is a piece of the code, and leaves no substitution
open. -/
structure IsPlain (x : Lexeme DepthCounter) (cs : List Char) : Prop where
  kind_eq : x.kind = .code
  extra_le : x.extra ≤ cs.length
  substitutions_eq : x.nesting.substitutions = []

/-- A choice between two lexemes of plain code is one. -/
lemma isPlain_ite {p : Prop} [Decidable p] {x y : Lexeme DepthCounter} (hx : p → x.IsPlain cs)
    (hy : ¬ p → y.IsPlain cs) : (if p then x else y).IsPlain cs := by
  by_cases h : p
  · rw [if_pos h]
    exact hx h
  · rw [if_neg h]
    exact hy h

/-- A first character of plain code that is no blank begins a lexeme of plain code. -/
lemma isPlain_ofText (hnesting : nesting.substitutions = []) (hc : Comment.IsPlain c)
    (hblank : isInlineBlank c = false) (htail : EndsPlain tail) :
    (ofText allowed nesting c (cs ++ tail)).IsPlain cs := by
  -- A single character that leaves the open brackets as they are.
  have hsingle : ∀ after, (⟨.code, 0, after, nesting⟩ : Lexeme DepthCounter).IsPlain cs :=
    fun after => ⟨rfl, Nat.zero_le _, hnesting⟩
  by_cases hopen : c = '\x7b'
  · subst hopen
    rw [ofText_openBrace]
    exact ⟨rfl, Nat.zero_le _, hnesting⟩
  by_cases hclose : c = '\x7d'
  · subst hclose
    -- Without an open substitution no template goes on.
    have hclosed : Nesting.close nesting = (⟨nesting.depth - 1, []⟩, false) := by
      obtain ⟨depth, substitutions⟩ := nesting
      obtain rfl : substitutions = [] := hnesting
      rfl
    rw [ofText_closeBrace, closeBrace, hclosed]
    exact ⟨rfl, Nat.zero_le _, rfl⟩
  have hother : c ∉ ['/', '\x27', '\x22', '\x60', '\x7b', '\x7d'] := by
    have hmem := hc.2
    simp only [List.mem_cons, List.not_mem_nil, or_false, not_or] at hmem ⊢
    exact ⟨hmem.1, hmem.2.1, hmem.2.2.1, hmem.2.2.2, hopen, hclose⟩
  rw [ofText_other hc.1 hblank hother]
  refine isPlain_ite (fun _ => hsingle _) fun _ => isPlain_ite (fun _ => hsingle _) fun _ => ?_
  refine isPlain_ite (fun hsign => ⟨rfl, ?_, hnesting⟩) fun _ => ?_
  · -- The second sign is a character of the code, since none follows it.
    simp only [Bool.and_eq_true, Bool.or_eq_true, decide_eq_true_eq, beq_iff_eq] at hsign
    obtain ⟨hsign, hhead⟩ := hsign
    cases cs with
    | nil =>
      have hne := (htail.head c hhead).2
      exact absurd hsign (not_or.mpr hne)
    | cons d ds => exact Nat.succ_le_succ (Nat.zero_le _)
  · exact isPlain_ite (fun _ => ⟨rfl, wordLength_append_le htail cs, hnesting⟩)
      fun _ => hsingle _

end Lexeme

/-- The scanner finds no comment in plain code.  Behind it the line has content if the code has a
character that is no blank. -/
theorem exists_scanFrom_plain (s : ScanState DepthCounter) (hs : s.nesting.substitutions = [])
    {code : List Char} (hcode : ∀ c ∈ code, IsPlain c) (htail : EndsPlain tail) :
    ∃ t : ScanState DepthCounter, t.pos = s.pos + byteLength code ∧
      t.lineHasContent = (s.lineHasContent || code.any fun c => !isInlineBlank c) ∧
      t.nesting.substitutions = [] ∧ scanFrom s (code ++ tail) = scanFrom t tail := by
  match code with
  | [] => exact ⟨s, rfl, (Bool.or_false _).symm, hs, rfl⟩
  | c :: cs =>
    have hcs : ∀ d ∈ cs, IsPlain d := fun d hd => hcode d (List.mem_cons_of_mem c hd)
    by_cases hblank : isInlineBlank c = true
    · obtain ⟨t, hpos, hcontent, hsub, hscan⟩ := exists_scanFrom_plain
        ⟨s.pos + byteLength [c], s.lineHasContent, s.regexAllowed, s.nesting⟩ hs hcs htail
      refine ⟨t, ?_, ?_, hsub, ?_⟩
      · rw [hpos, byteLength_cons c cs, ← Nat.add_assoc]
        rfl
      · rw [hcontent, List.any_cons, hblank]
        rfl
      · rw [List.cons_append, scanFrom_layout (.inr rfl) (Lexeme.ofText_blank hblank)]
        exact hscan
    · rw [Bool.not_eq_true] at hblank
      have hplain : (Lexeme.ofText s.regexAllowed s.nesting c (cs ++ tail)).IsPlain cs :=
        Lexeme.isPlain_ofText hs (hcode c List.mem_cons_self) hblank htail
      set x := Lexeme.ofText s.regexAllowed s.nesting c (cs ++ tail) with hx
      have htake : (cs ++ tail).take x.extra = cs.take x.extra :=
        List.take_append_of_le_length hplain.extra_le
      have hdrop : (cs ++ tail).drop x.extra = cs.drop x.extra ++ tail :=
        List.drop_append_of_le_length hplain.extra_le
      have hnone : s.comment? x = none := by
        rw [ScanState.comment?, hplain.kind_eq]
      have hrest : ∀ d ∈ cs.drop x.extra, IsPlain d := fun d hd => hcs d (List.mem_of_mem_drop hd)
      obtain ⟨t, hpos, hcontent, hsub, hscan⟩ := exists_scanFrom_plain
        (s.after x (c :: cs.take x.extra)) hplain.substitutions_eq hrest htail
      refine ⟨t, ?_, ?_, hsub, ?_⟩
      · have hsplit := cons_take_append_drop c cs x.extra
        rw [hpos, ← hsplit, byteLength_append, ← Nat.add_assoc]
        rfl
      · rw [hcontent, ScanState.after, hplain.kind_eq, List.any_cons, hblank]
        simp [ScanState.contentAfter]
      · rw [List.cons_append, scanFrom_cons, ← hx, hnone, htake, hdrop]
        exact hscan
termination_by code.length
decreasing_by all_goals simp only [List.length_cons, List.length_drop]; omega

end InlineExpect.Comment
