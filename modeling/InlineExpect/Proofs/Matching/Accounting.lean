import Mathlib
import InlineExpect.Proofs.Assertion.Tidy
import InlineExpect.Proofs.Matching.Diagnostics
import InlineExpect.Proofs.Matching.Walk

/-!
# The account of the diagnostics

The comparison of diagnostics with assertions asks first whether a line has duplicates, and only
then whether a diagnostic is expected on it.  On a line with both, a diagnostic would have two
fates, and the line would be reported as one without a diagnostic.  Since the assertions of a text
are tidy, there is no such line: each diagnostic has one fate, and what a match says of diagnostics
is read off from their fates (`matchAssertions_account`).
-/

namespace InlineExpect

/-! ### Fates -/

/-- What can become of a diagnostic. -/
inductive Fate where
  /-- The assertions about its line invalidate each other. -/
  | superseded
  /-- An assertion expects a diagnostic on its line. -/
  | consumed
  /-- It has no place, or its line is not one of those. -/
  | unexpected
deriving DecidableEq, Repr

namespace Diagnostic

/-- A diagnostic meets a fate at the hands of some assertions. -/
def Meets (d : Diagnostic) (s : AssertionSet) (index : LineIndex) : Fate → Prop
  | .superseded => ∃ line ∈ s.duplicateLines, d.line? index = some line
  | .consumed => ∃ line ∈ s.errorLines, d.line? index = some line
  | .unexpected =>
    d.span = none ∨ ∃ line ∈ d.line? index, line ∉ s.duplicateLines ∧ line ∉ s.errorLines

instance (d : Diagnostic) (s : AssertionSet) (index : LineIndex) :
    DecidablePred (d.Meets s index)
  | .superseded =>
    inferInstanceAs (Decidable (∃ line ∈ s.duplicateLines, d.line? index = some line))
  | .consumed => inferInstanceAs (Decidable (∃ line ∈ s.errorLines, d.line? index = some line))
  | .unexpected =>
    inferInstanceAs (Decidable (d.span = none ∨
      ∃ line ∈ d.line? index, line ∉ s.duplicateLines ∧ line ∉ s.errorLines))

variable {d : Diagnostic} {s : AssertionSet} {index : LineIndex} {line : Nat}

/-- A diagnostic without a place is unexpected. -/
lemma meets_iff_of_span_eq_none (s : AssertionSet) (index : LineIndex) (h : d.span = none)
    (fate : Fate) : d.Meets s index fate ↔ fate = .unexpected := by
  have hline : d.line? index = none := line?_of_span_eq_none h
  cases fate <;> simp [Meets, h, hline]

/-- A diagnostic is superseded if it is on a line with duplicates. -/
lemma meets_superseded_iff (h : d.line? index = some line) :
    d.Meets s index .superseded ↔ line ∈ s.duplicateLines := by
  simp [Meets, h]

/-- A diagnostic is consumed if it is on a line that expects one. -/
lemma meets_consumed_iff (h : d.line? index = some line) :
    d.Meets s index .consumed ↔ line ∈ s.errorLines := by
  simp [Meets, h]

/-- A diagnostic in the text is unexpected if it is on a line of neither kind. -/
lemma meets_unexpected_iff (h : d.line? index = some line) :
    d.Meets s index .unexpected ↔ line ∉ s.duplicateLines ∧ line ∉ s.errorLines := by
  obtain ⟨span, hspan, -⟩ := line?_eq_some_iff.mp h
  simp [Meets, h, hspan]

/-- A diagnostic has one fate, provided that no diagnostic is expected on a line with duplicates. -/
lemma existsUnique_meets (hdisjoint : ∀ line ∈ s.duplicateLines, line ∉ s.errorLines)
    (hd : d.StartsWithin index.size) : ∃! fate, d.Meets s index fate := by
  cases hspan : d.span with
  | none =>
    have hiff := meets_iff_of_span_eq_none s index hspan
    exact ⟨.unexpected, (hiff _).mpr rfl, fun fate hfate => (hiff fate).mp hfate⟩
  | some span =>
    obtain ⟨line, hl⟩ := LineIndex.exists_lineOf (hd span hspan)
    have hline : d.line? index = some line := line?_of_lineOf hspan hl
    have hsuperseded := meets_superseded_iff (s := s) hline
    have hconsumed := meets_consumed_iff (s := s) hline
    have hunexpected := meets_unexpected_iff (s := s) hline
    by_cases hduplicate : line ∈ s.duplicateLines
    · refine ⟨.superseded, hsuperseded.mpr hduplicate, fun fate hfate => ?_⟩
      cases fate with
      | superseded => rfl
      | consumed => exact absurd (hconsumed.mp hfate) (hdisjoint line hduplicate)
      | unexpected => exact absurd hduplicate (hunexpected.mp hfate).1
    by_cases herror : line ∈ s.errorLines
    · refine ⟨.consumed, hconsumed.mpr herror, fun fate hfate => ?_⟩
      cases fate with
      | superseded => exact absurd (hsuperseded.mp hfate) hduplicate
      | consumed => rfl
      | unexpected => exact absurd herror (hunexpected.mp hfate).2
    · refine ⟨.unexpected, hunexpected.mpr ⟨hduplicate, herror⟩, fun fate hfate => ?_⟩
      cases fate with
      | superseded => exact absurd (hsuperseded.mp hfate) hduplicate
      | consumed => exact absurd (hconsumed.mp hfate) herror
      | unexpected => rfl

end Diagnostic

/-! ### Diagnostics that are matched -/

section Matched

variable {index : LineIndex} {s : AssertionSet} {ds : List Diagnostic}

/-- Diagnostics that are matched without an error are located in the text. -/
lemma startsWithin_of_matchDiagnostics {r : DiagnosticMatch}
    (h : matchDiagnostics index s ds = .ok r) : ∀ d ∈ ds, d.StartsWithin index.size := by
  induction ds generalizing r with
  | nil => simp
  | cons d ds ih =>
    have hhead : d.StartsWithin index.size := by
      intro span hspan
      by_contra hlt
      have herror := (index.lineOf_eq_error_iff span.start _).mpr ⟨not_le.mp hlt, rfl⟩
      rw [matchDiagnostics, hspan] at h
      simp only [herror] at h
      cases h
    have htail : ∃ r', matchDiagnostics index s ds = .ok r' := by
      cases hds : matchDiagnostics index s ds with
      | ok r' => exact ⟨r', rfl⟩
      | error e =>
        unfold matchDiagnostics at h
        cases hspan : d.span with
        | none =>
          simp only [hspan, hds] at h
          cases h
        | some span =>
          obtain ⟨line, hl⟩ := LineIndex.exists_lineOf (hhead span hspan)
          simp only [hspan, hl, hds] at h
          cases h
    obtain ⟨r', hr'⟩ := htail
    exact List.forall_mem_cons.mpr ⟨hhead, ih hr'⟩

/-- What is left over of diagnostics in the text are those that are unexpected. -/
lemma leaves_iff_meets {d : Diagnostic} (hd : d.StartsWithin index.size) :
    s.leaves index d = true ↔ d.Meets s index .unexpected := by
  cases hspan : d.span with
  | none =>
    have hline : d.line? index = none := Diagnostic.line?_of_span_eq_none hspan
    rw [Diagnostic.meets_iff_of_span_eq_none s index hspan, AssertionSet.leaves, hline]
    exact iff_of_true rfl rfl
  | some span =>
    obtain ⟨line, hl⟩ := LineIndex.exists_lineOf (hd span hspan)
    have hline : d.line? index = some line := Diagnostic.line?_of_lineOf hspan hl
    rw [Diagnostic.meets_unexpected_iff hline, AssertionSet.leaves, hline]
    dsimp only
    rw [Bool.and_eq_true, Bool.not_eq_true', Bool.not_eq_true', ← Bool.not_eq_true,
      ← Bool.not_eq_true, AssertionSet.isDuplicateLine_iff, List.contains_iff_mem]

/-- A line that expects a diagnostic has not seen one if there is none on it, provided that it has
no duplicates. -/
lemma not_seen_iff {line : Nat} (hmem : line ∈ s.errorLines) (hdup : line ∉ s.duplicateLines) :
    (!((ds.filterMap (·.line? index)).filter s.consumes).contains line) = true ↔
      ∀ d ∈ ds, d.line? index ≠ some line := by
  rw [Bool.not_eq_true', ← Bool.not_eq_true, List.contains_iff_mem, mem_seenLines_iff,
    and_iff_left (AssertionSet.consumes_of_mem hmem hdup)]
  constructor
  · intro hnone d hd hline
    exact hnone ⟨d, hd, hline⟩
  · rintro hnone ⟨d, hd, hline⟩
    exact hnone d hd hline

end Matched

/-- When the assertions of a text are matched without an error, each diagnostic that the oracle
reports has one fate, the result holds those that are unexpected as they were reported, and the
lines that expect a diagnostic and have none.  A text without assertions leaves all diagnostics. -/
theorem matchAssertions_account (o : Oracle Id) (file : String) (text : List Char) (r : MatchResult)
    (h : (matchAssertions o file (LineIndex.ofText text) (AssertionSet.extract text)).run =
      Except.ok r) :
    ∃ ds, o.diagnostics file = Except.ok ds ∧
      if (AssertionSet.extract text).isEmpty then r = { unexpected := ds }
      else
        (∀ d ∈ ds, ∃! fate, d.Meets (AssertionSet.extract text) (LineIndex.ofText text) fate) ∧
        r.unexpected =
          ds.filter (·.Meets (AssertionSet.extract text) (LineIndex.ofText text) .unexpected) ∧
        r.unseenErrorLines = (AssertionSet.extract text).errorLines.filter fun line =>
          ∀ d ∈ ds, d.line? (LineIndex.ofText text) ≠ some line := by
  have htidy := AssertionSet.tidy_extract text
  set s := AssertionSet.extract text
  set index := LineIndex.ofText text
  obtain ⟨ds, hds, ⟨hempty, hr⟩ | ⟨hempty, d, t, hd, -, hr⟩⟩ := exists_parts_of_matchAssertions h
  · refine ⟨ds, hds, ?_⟩
    rw [if_pos hempty]
    exact hr
  refine ⟨ds, hds, ?_⟩
  have hwithin := startsWithin_of_matchDiagnostics hd
  rw [matchDiagnostics_eq_ok hwithin] at hd
  obtain rfl := Except.ok.inj hd
  rw [if_neg (Bool.eq_false_iff.mp hempty), hr]
  refine ⟨fun d hd => ?_, ?_, ?_⟩
  · exact Diagnostic.existsUnique_meets htidy.not_mem_errorLines (hwithin d hd)
  · refine List.filter_congr fun d hd => Bool.eq_iff_iff.mpr ?_
    rw [leaves_iff_meets (hwithin d hd), decide_eq_true_iff]
  · refine List.filter_congr fun line hline => Bool.eq_iff_iff.mpr ?_
    have hdup : line ∉ s.duplicateLines := fun hmem => htidy.not_mem_errorLines line hmem hline
    rw [not_seen_iff hline hdup, decide_eq_true_iff]

/-- A text with two marks for its second line and one for its third. -/
def contestedText : List Char :=
  "// $ExpectError\nx; // $ExpectError\ny; // $ExpectError\n".toList

/-- An oracle that reports something about each line of the contested text, and about none. -/
def contestedOracle : Oracle Id where
  version := .next
  tree file := .error (.unknownFile file)
  diagnostics _ := .ok [.located "a.ts" ⟨0, 1⟩ 2304 "first line", .located "a.ts" ⟨16, 1⟩ 2304 "x",
    .located "a.ts" ⟨35, 1⟩ 2304 "y", ⟨none, none, "no place", 4094, .message, .semantic⟩,
    .located "a.ts" ⟨37, 1⟩ 2304 "y again"]
  typeOf file node := .error (.unknownNode file node)

/-- The result for the contested text: the diagnostics of its second and third line are left out. -/
def contestedResult : MatchResult where
  unexpected := [.located "a.ts" ⟨0, 1⟩ 2304 "first line",
    ⟨none, none, "no place", 4094, .message, .semantic⟩]
  duplicates := [⟨1, .error⟩]

/-- The contested text is matched without an error, and its diagnostics have one fate each. -/
theorem matchAssertions_contestedText :
    (matchAssertions contestedOracle "a.ts" (LineIndex.ofText contestedText)
      (AssertionSet.extract contestedText)).run = Except.ok contestedResult ∧
    ∃ ds, contestedOracle.diagnostics "a.ts" = Except.ok ds ∧
      (∀ d ∈ ds, ∃! fate,
        d.Meets (AssertionSet.extract contestedText) (LineIndex.ofText contestedText) fate) ∧
      contestedResult.unexpected = ds.filter
        (·.Meets (AssertionSet.extract contestedText) (LineIndex.ofText contestedText)
          .unexpected) := by
  have hrun : Id.run (matchAssertions contestedOracle "a.ts" (LineIndex.ofText contestedText)
      (AssertionSet.extract contestedText)).run = Except.ok contestedResult := by decide +kernel
  have hempty : ¬ (AssertionSet.extract contestedText).isEmpty = true := by decide +kernel
  obtain ⟨ds, hds, h⟩ := matchAssertions_account contestedOracle "a.ts" contestedText _ hrun
  rw [if_neg hempty] at h
  exact ⟨hrun, ds, hds, h.1, h.2.1⟩

end InlineExpect
