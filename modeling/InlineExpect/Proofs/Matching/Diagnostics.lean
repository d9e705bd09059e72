import Mathlib
import InlineExpect.Matching.Match
import InlineExpect.Proofs.Text.LineOf

/-!
# Expected and unexpected diagnostics

`matchDiagnostics` goes through the diagnostics of a file once and stops at the first one that is
located behind the text.  Where there is no such diagnostic, what it finds does not depend on the
order in which it looks: the unexpected diagnostics are those that are left after removing the
diagnostics located on a line of an assertion, and the seen lines are the lines of the diagnostics
that an assertion consumes (`matchDiagnostics_eq_ok`).
-/

namespace InlineExpect

/-- The line of a text on which a diagnostic is located. -/
def Diagnostic.line? (index : LineIndex) (d : Diagnostic) : Option Nat :=
  d.span.bind fun span => (index.lineOf span.start).toOption

/-- A diagnostic is located in a text of the given size, or not located at all. -/
def Diagnostic.StartsWithin (size : Nat) (d : Diagnostic) : Prop :=
  ∀ span, d.span = some span → span.start ≤ size

namespace AssertionSet

/-- Whether a diagnostic on a line is one that an assertion expects. -/
def consumes (s : AssertionSet) (line : Nat) : Bool :=
  !s.isDuplicateLine line && s.errorLines.contains line

/-- Whether a diagnostic is one that no assertion expects or supersedes. -/
def leaves (s : AssertionSet) (index : LineIndex) (d : Diagnostic) : Bool :=
  match d.line? index with
  | none => true
  | some line => !s.isDuplicateLine line && !s.errorLines.contains line

end AssertionSet

namespace Diagnostic

/-- A diagnostic without a span is on no line. -/
lemma line?_of_span_eq_none {index : LineIndex} {d : Diagnostic} (h : d.span = none) :
    d.line? index = none := by
  unfold line?
  rw [h]
  rfl

/-- A diagnostic is on the line that is looked up for the start of its span. -/
lemma line?_of_lineOf {index : LineIndex} {d : Diagnostic} {span : Span} {line : Nat}
    (hd : d.span = some span) (hl : index.lineOf span.start = .ok line) :
    d.line? index = some line := by
  unfold line?
  rw [hd, Option.bind_some, hl]
  rfl

/-- The line of a diagnostic is looked up at the start of its span. -/
lemma line?_eq_some_iff {index : LineIndex} {d : Diagnostic} {line : Nat} :
    d.line? index = some line ↔
      ∃ span, d.span = some span ∧ index.lineOf span.start = .ok line := by
  constructor
  · intro h
    obtain ⟨span, hspan, hline⟩ := Option.bind_eq_some_iff.mp h
    refine ⟨span, hspan, ?_⟩
    cases hl : index.lineOf span.start with
    | error e => simp [hl, Except.toOption] at hline
    | ok l =>
      rw [hl] at hline
      rw [Option.some.inj hline]
  · rintro ⟨span, hspan, hline⟩
    exact line?_of_lineOf hspan hline

end Diagnostic

variable {index : LineIndex} {s : AssertionSet}

/-- What becomes of diagnostics that are all located in the text. -/
theorem matchDiagnostics_eq_ok {ds : List Diagnostic}
    (h : ∀ d ∈ ds, d.StartsWithin index.size) :
    matchDiagnostics index s ds =
      .ok ⟨(ds.filterMap (·.line? index)).filter s.consumes, ds.filter (s.leaves index)⟩ := by
  induction ds with
  | nil => rfl
  | cons d ds ih =>
    have ih := ih fun d' hd' => h d' (List.mem_cons_of_mem d hd')
    unfold matchDiagnostics
    cases hspan : d.span with
    | none =>
      have hline : d.line? index = none := Diagnostic.line?_of_span_eq_none hspan
      have hleaves : s.leaves index d = true := by rw [AssertionSet.leaves, hline]
      rw [List.filterMap_cons_none hline, List.filter_cons_of_pos hleaves, ih]
      rfl
    | some span =>
      obtain ⟨line, hl⟩ := LineIndex.exists_lineOf (h d List.mem_cons_self span hspan)
      have hline : d.line? index = some line := Diagnostic.line?_of_lineOf hspan hl
      have hleaves : s.leaves index d =
          (!s.isDuplicateLine line && !s.errorLines.contains line) := by
        rw [AssertionSet.leaves, hline]
      rw [List.filterMap_cons_some hline, List.filter_cons, List.filter_cons, hleaves,
        AssertionSet.consumes]
      simp only [hl, ih, bind, Except.bind, pure, Except.pure]
      cases s.isDuplicateLine line <;> cases s.errorLines.contains line <;> rfl

/-- A line is seen if an assertion expects a diagnostic on it and there is one. -/
lemma mem_seenLines_iff {ds : List Diagnostic} {line : Nat} :
    line ∈ (ds.filterMap (·.line? index)).filter s.consumes ↔
      (∃ d ∈ ds, d.line? index = some line) ∧ s.consumes line = true := by
  rw [List.mem_filter, List.mem_filterMap]

/-- A line that expects a diagnostic consumes one unless it has duplicates. -/
lemma AssertionSet.consumes_of_mem {line : Nat} (hmem : line ∈ s.errorLines)
    (hdup : line ∉ s.duplicateLines) : s.consumes line = true := by
  have hline : s.isDuplicateLine line = false := by
    rw [← Bool.not_eq_true, isDuplicateLine_iff]
    exact hdup
  rw [consumes, hline, Bool.not_false, Bool.true_and, List.contains_iff_mem]
  exact hmem

/-! ### Assertions without duplicates -/

/-- Without duplicates no line is a line with duplicates. -/
lemma AssertionSet.isDuplicateLine_eq_false (h : s.duplicates = []) (line : Nat) :
    s.isDuplicateLine line = false := by
  rw [isDuplicateLine, duplicateLines, h]
  rfl

/-- Without duplicates a diagnostic is left over unless it is on a line that expects one. -/
lemma AssertionSet.leaves_eq_false_iff (h : s.duplicates = []) {d : Diagnostic} :
    s.leaves index d = false ↔ ∃ line ∈ s.errorLines, d.line? index = some line := by
  unfold leaves
  cases hline : d.line? index with
  | none => simp
  | some line =>
    dsimp only
    rw [isDuplicateLine_eq_false h, Bool.not_false, Bool.true_and, Bool.not_eq_false',
      List.contains_iff_mem]
    constructor
    · intro hmem
      exact ⟨line, hmem, rfl⟩
    · rintro ⟨l, hmem, hl⟩
      rwa [Option.some.inj hl]

/-- Without duplicates nothing is unexpected if every diagnostic is on a line that expects one. -/
lemma unexpected_eq_nil_iff (h : s.duplicates = []) {ds : List Diagnostic} :
    ds.filter (s.leaves index) = [] ↔
      ∀ d ∈ ds, ∃ line ∈ s.errorLines, d.line? index = some line := by
  rw [List.filter_eq_nil_iff]
  refine forall₂_congr fun d _ => ?_
  rw [Bool.not_eq_true, AssertionSet.leaves_eq_false_iff h]

/-- Without duplicates nothing is missing if every line that expects a diagnostic has one. -/
lemma unseenErrorLines_eq_nil_iff (h : s.duplicates = []) {ds : List Diagnostic} :
    s.errorLines.filter
        (fun line => !((ds.filterMap (·.line? index)).filter s.consumes).contains line) = [] ↔
      ∀ line ∈ s.errorLines, ∃ d ∈ ds, d.line? index = some line := by
  rw [List.filter_eq_nil_iff]
  refine forall₂_congr fun line hmem => ?_
  have hdup : line ∉ s.duplicateLines := by
    rw [AssertionSet.duplicateLines, h]
    exact List.not_mem_nil
  rw [Bool.not_eq_true, Bool.not_eq_false', List.contains_iff_mem, mem_seenLines_iff,
    and_iff_left (AssertionSet.consumes_of_mem hmem hdup)]

end InlineExpect
