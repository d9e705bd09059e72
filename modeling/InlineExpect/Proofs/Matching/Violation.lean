import Mathlib
import InlineExpect.Proofs.Matching.Rendering
import InlineExpect.Proofs.Matching.StableSort
import InlineExpect.Proofs.Text.Position

/-!
# Violations and the failures that show them

A match result keeps what does not match in five lists, and renders it as one list of failures.
`MatchResult.violations` puts the five lists together, and `Violation.ShownBy` says how a failure
shows a violation: with its kind and its wording, at its place.  The rendering of a result is then
the rendering of its violations one by one (`MatchResult.failuresByKind_eq_mapM`), sorted.  So it
shows each violation once, and it fails only on a violation that is located behind the text
(`MatchResult.failures_showsAll`).
-/

namespace InlineExpect

/-- Something that does not match, by the list of a match result that it comes from. -/
inductive Violation where
  | duplicate (d : Duplicate)
  | mismatch (m : Mismatch)
  | unused (line : Nat)
  | unseen (line : Nat)
  | unexpected (d : Diagnostic)
deriving DecidableEq, Repr

/-- What a violation is about: a line as a whole, or the place of a span. -/
inductive Place where
  | line (number : Nat)
  | span (span : Span)
deriving DecidableEq, Repr

/-- All violations of a match result, list by list. -/
def MatchResult.violations (r : MatchResult) : List Violation :=
  r.duplicates.map .duplicate ++ r.mismatches.map .mismatch ++ r.unusedLines.map .unused ++
    r.unseenErrorLines.map .unseen ++ r.unexpected.map .unexpected

namespace Violation

/-- The kind of the failures that show a violation. -/
def kind : Violation → FailureKind
  | .duplicate _ => .duplicateAssertion
  | .mismatch _ => .typeMismatch
  | .unused _ => .unmatchedAssertion
  | .unseen _ => .missingExpectedError
  | .unexpected _ => .unexpectedDiagnostic

/-- What a violation is about.  A diagnostic without a span counts as one of the empty span at the
start of the text. -/
def place : Violation → Place
  | .duplicate d => .line d.line
  | .mismatch m => .span m.span
  | .unused line => .line line
  | .unseen line => .line line
  | .unexpected d => .span (d.span.getD ⟨0, 0⟩)

/-- A violation in words. -/
def message (version : Version) : Violation → String
  | .duplicate d => Template.duplicateAssertion.format [d.kind.keyword]
  | .mismatch m => Template.expectedType.format [m.expected, m.actual]
  | .unused _ => Template.unmatchedAssertion.format []
  | .unseen _ => Template.missingError.format []
  | .unexpected d => Template.compileError.format [version.text, d.text]

end Violation

/-- A failure stands at a place.  For a line that is the empty span at its start, or at the end of
the text if there is no such line.  For a span it is the span itself, with the position of its
start. -/
def Failure.StandsAt (g : Failure) (index : LineIndex) : Place → Prop
  | .line number => g.line = number ∧ g.column = 0 ∧ g.span.length = 0 ∧
      (index.lineStart number = .ok g.span.start ∨
        index.lineCount ≤ number ∧ g.span.start = index.size)
  | .span span => g.span = span ∧ index.positionOf span.start = .ok ⟨g.line, g.column⟩

/-- A failure shows a violation of a file. -/
structure Violation.ShownBy (file : String) (index : LineIndex) (version : Version) (v : Violation)
    (g : Failure) : Prop where
  file_eq : g.file = file
  kind_eq : g.kind = v.kind
  message_eq : g.message = v.message version
  standsAt : g.StandsAt index v.place

/-- Failures show a match result: one failure for each of its violations, in the order of lines,
columns and kinds, and those with equal keys in the order of the list that they come from. -/
structure MatchResult.ShownBy (r : MatchResult) (file : String) (index : LineIndex)
    (version : Version) (fs : List Failure) : Prop where
  shown : ∃ gs, List.Forall₂ (Violation.ShownBy file index version) r.violations gs ∧ fs.Perm gs ∧
    ∀ k, fs.filter (fun g => g.key = k) = gs.filter fun g => g.key = k
  sorted : fs.Pairwise fun g h => Failure.rank g.key ≤ Failure.rank h.key
  length_eq : fs.length = r.failureCount
  eq_nil_iff : fs = [] ↔ r.isPass = true

/-! ### One violation -/

namespace Violation

variable {file : String} {index : LineIndex} {version : Version} {v : Violation} {g : Failure}
  {e : LookupError}

/-- The failure as which a violation is rendered. -/
def failure (file : String) (index : LineIndex) (version : Version) :
    Violation → Except LookupError Failure
  | .duplicate d => .ok (MatchResult.duplicateFailure file index d)
  | .mismatch m => MatchResult.mismatchFailure file index m
  | .unused line => .ok (MatchResult.lineFailure file index .unmatchedAssertion
      (Template.unmatchedAssertion.format []) line)
  | .unseen line => .ok (MatchResult.lineFailure file index .missingExpectedError
      (Template.missingError.format []) line)
  | .unexpected d => MatchResult.diagnosticFailure file index version d

/-- A failure about a line stands at the line. -/
lemma standsAt_lineFailure (kind : FailureKind) (message : String) (line : Nat) :
    (MatchResult.lineFailure file index kind message line).StandsAt index (.line line) := by
  refine ⟨rfl, rfl, rfl, ?_⟩
  change index.lineStart line = .ok (index.starts.getD line index.size) ∨
    index.lineCount ≤ line ∧ index.starts.getD line index.size = index.size
  rw [Array.getD_eq_getD_getElem?]
  cases hget : index.starts[line]? with
  | some start => exact .inl (LineIndex.lineStart_eq_ok_iff.mpr hget)
  | none => exact .inr ⟨Array.getElem?_eq_none_iff.mp hget, rfl⟩

/-- A failure at a span stands there. -/
lemma eq_and_standsAt_of_spanFailure {kind : FailureKind} {message : String} {span : Span}
    (h : MatchResult.spanFailure file index kind message span = .ok g) :
    g.file = file ∧ g.kind = kind ∧ g.message = message ∧ g.StandsAt index (.span span) := by
  unfold MatchResult.spanFailure at h
  obtain ⟨position, hposition, hg⟩ := bind_eq_ok_iff.mp h
  obtain rfl := Except.ok.inj hg
  exact ⟨rfl, rfl, rfl, rfl, hposition⟩

/-- A failure at a span is not found exactly if the span starts behind the text. -/
lemma spanFailure_eq_error_iff {kind : FailureKind} {message : String} {span : Span} :
    MatchResult.spanFailure file index kind message span = .error e ↔
      index.size < span.start ∧ e = .offset span.start index.size := by
  rw [← LineIndex.lineOf_eq_error_iff, ← LineIndex.positionOf_eq_error_iff_lineOf]
  unfold MatchResult.spanFailure
  cases index.positionOf span.start with
  | error e' =>
    constructor
    · intro h
      exact congrArg Except.error (Except.error.inj h)
    · intro h
      exact congrArg Except.error (Except.error.inj h)
  | ok position => exact iff_of_false nofun nofun

/-- A violation is shown by the failure as which it is rendered. -/
lemma shownBy_of_failure (h : v.failure file index version = .ok g) :
    v.ShownBy file index version g := by
  cases v with
  | duplicate d =>
    obtain rfl := Except.ok.inj h
    exact ⟨rfl, rfl, rfl, standsAt_lineFailure _ _ _⟩
  | mismatch m =>
    obtain ⟨hfile, hkind, hmessage, hstands⟩ := eq_and_standsAt_of_spanFailure h
    exact ⟨hfile, hkind, hmessage, hstands⟩
  | unused line =>
    obtain rfl := Except.ok.inj h
    exact ⟨rfl, rfl, rfl, standsAt_lineFailure _ _ _⟩
  | unseen line =>
    obtain rfl := Except.ok.inj h
    exact ⟨rfl, rfl, rfl, standsAt_lineFailure _ _ _⟩
  | unexpected d =>
    obtain ⟨hfile, hkind, hmessage, hstands⟩ := eq_and_standsAt_of_spanFailure h
    exact ⟨hfile, hkind, hmessage, hstands⟩

/-- A violation is not rendered exactly if it is about a span that starts behind the text. -/
lemma failure_eq_error_iff : v.failure file index version = .error e ↔
    ∃ span, v.place = .span span ∧ index.size < span.start ∧
      e = .offset span.start index.size := by
  cases v with
  | duplicate d => simp [failure, place]
  | unused line => simp [failure, place]
  | unseen line => simp [failure, place]
  | mismatch m =>
    simp only [place, Place.span.injEq, exists_eq_left']
    exact spanFailure_eq_error_iff
  | unexpected d =>
    simp only [place, Place.span.injEq, exists_eq_left']
    exact spanFailure_eq_error_iff

end Violation

/-! ### All violations -/

namespace MatchResult

variable {r : MatchResult} {file : String} {index : LineIndex} {version : Version}
  {fs : List Failure} {e : LookupError}

/-- A violation of a result is about a span that starts behind the text. -/
inductive Misplaced (r : MatchResult) (index : LineIndex) : LookupError → Prop
  | mismatch {m : Mismatch} (hm : m ∈ r.mismatches) (hlt : index.size < m.span.start) :
    Misplaced r index (.offset m.span.start index.size)
  | unexpected {d : Diagnostic} {span : Span} (hd : d ∈ r.unexpected) (hspan : d.span = some span)
    (hlt : index.size < span.start) : Misplaced r index (.offset span.start index.size)

/-- A violation is one of a result if the list that it comes from has it. -/
lemma mem_violations_iff {v : Violation} : v ∈ r.violations ↔
    match v with
    | .duplicate d => d ∈ r.duplicates
    | .mismatch m => m ∈ r.mismatches
    | .unused line => line ∈ r.unusedLines
    | .unseen line => line ∈ r.unseenErrorLines
    | .unexpected d => d ∈ r.unexpected := by
  cases v <;> simp [violations]

/-- A result has as many violations as it counts. -/
lemma length_violations (r : MatchResult) : r.violations.length = r.failureCount := by
  simp only [violations, failureCount, List.length_append, List.length_map]
  omega

/-- The failures of a result are those of its violations, one by one. -/
lemma failuresByKind_eq_mapM (r : MatchResult) (file : String) (index : LineIndex)
    (version : Version) :
    r.failuresByKind file index version =
      r.violations.mapM (Violation.failure file index version) := by
  have hduplicates : r.duplicates.mapM (Violation.failure file index version ∘ .duplicate) =
      .ok (r.duplicates.map (duplicateFailure file index)) := List.mapM_pure
  have hunused : r.unusedLines.mapM (Violation.failure file index version ∘ .unused) =
      .ok (r.unusedLines.map (lineFailure file index .unmatchedAssertion
        (Template.unmatchedAssertion.format []))) := List.mapM_pure
  have hunseen : r.unseenErrorLines.mapM (Violation.failure file index version ∘ .unseen) =
      .ok (r.unseenErrorLines.map (lineFailure file index .missingExpectedError
        (Template.missingError.format []))) := List.mapM_pure
  have hmismatches : Violation.failure file index version ∘ .mismatch =
      mismatchFailure file index := rfl
  have hunexpected : Violation.failure file index version ∘ .unexpected =
      diagnosticFailure file index version := rfl
  unfold failuresByKind violations
  simp only [List.mapM_append, List.mapM_map, hduplicates, hunused, hunseen, hmismatches,
    hunexpected]
  cases r.mismatches.mapM (mismatchFailure file index) with
  | error e => rfl
  | ok mismatches => rfl

/-- A result that is not rendered has a violation that is located behind the text. -/
lemma misplaced_of_failures (h : r.failures file index version = .error e) :
    r.Misplaced index e := by
  unfold failures at h
  rw [failuresByKind_eq_mapM] at h
  cases hkinds : r.violations.mapM (Violation.failure file index version) with
  | ok gs =>
    rw [hkinds] at h
    cases h
  | error e' =>
    rw [hkinds] at h
    obtain rfl := Except.error.inj h
    obtain ⟨v, hv, hfailure⟩ := exists_of_mapM_eq_error hkinds
    obtain ⟨span, hplace, hlt, rfl⟩ := Violation.failure_eq_error_iff.mp hfailure
    rw [mem_violations_iff] at hv
    cases v with
    | duplicate d => cases hplace
    | unused line => cases hplace
    | unseen line => cases hplace
    | mismatch m =>
      obtain rfl := Place.span.inj hplace
      exact .mismatch hv hlt
    | unexpected d =>
      obtain rfl := Place.span.inj hplace
      cases hspan : d.span with
      | none =>
        rw [hspan] at hlt
        exact absurd hlt (Nat.not_lt_zero _)
      | some span =>
        rw [hspan] at hlt
        exact .unexpected hv hspan hlt

/-- The failures of a result that is rendered are those of its violations, sorted. -/
lemma exists_mapM_of_failures (h : r.failures file index version = .ok fs) :
    ∃ gs, r.violations.map (Violation.failure file index version) = gs.map Except.ok ∧
      fs = Failure.sort gs := by
  unfold failures at h
  rw [failuresByKind_eq_mapM] at h
  obtain ⟨gs, hkinds, hsorted⟩ := bind_eq_ok_iff.mp h
  exact ⟨gs, mapM_eq_ok_iff.mp hkinds, (Except.ok.inj hsorted).symm⟩

/-- A result with a violation that is located behind the text is not rendered. -/
lemma Misplaced.failures_ne_ok (h : r.Misplaced index e) :
    r.failures file index version ≠ .ok fs := by
  intro hok
  obtain ⟨gs, hgs, -⟩ := exists_mapM_of_failures hok
  have hplaced : ∀ v ∈ r.violations, v.failure file index version ≠ .error e := by
    intro v hv he
    have hmem := List.mem_map_of_mem (f := Violation.failure file index version) hv
    rw [hgs, he] at hmem
    obtain ⟨g, -, hg⟩ := List.mem_map.mp hmem
    cases hg
  cases h with
  | @mismatch m hm hlt =>
    exact hplaced (.mismatch m) (mem_violations_iff.mpr hm)
      (Violation.failure_eq_error_iff.mpr ⟨_, rfl, hlt, rfl⟩)
  | @unexpected d span hd hspan hlt =>
    have hplace : (Violation.unexpected d).place = .span span := by
      rw [Violation.place, hspan, Option.getD_some]
    exact hplaced (.unexpected d) (mem_violations_iff.mpr hd)
      (Violation.failure_eq_error_iff.mpr ⟨span, hplace, hlt, rfl⟩)

/-- Each failure of a result that is rendered shows one of its violations. -/
lemma exists_shownBy_of_mem (h : r.failures file index version = .ok fs) {g : Failure}
    (hg : g ∈ fs) : ∃ v ∈ r.violations, v.ShownBy file index version g := by
  obtain ⟨gs, hgs, rfl⟩ := exists_mapM_of_failures h
  have hmem : Except.ok g ∈ r.violations.map (Violation.failure file index version) := by
    rw [hgs]
    exact List.mem_map_of_mem ((List.mergeSort_perm gs Failure.le).mem_iff.mp hg)
  obtain ⟨v, hv, hfailure⟩ := List.mem_map.mp hmem
  exact ⟨v, hv, Violation.shownBy_of_failure hfailure⟩

/-- The failures of a result that is rendered show it. -/
lemma shownBy_of_failures (h : r.failures file index version = .ok fs) :
    r.ShownBy file index version fs := by
  obtain ⟨gs, hgs, rfl⟩ := exists_mapM_of_failures h
  have hshown : List.Forall₂ (Violation.ShownBy file index version) r.violations gs := by
    have heq : List.Forall₂ (· = ·) (r.violations.map (Violation.failure file index version))
        (gs.map Except.ok) := by
      rw [hgs]
      exact List.forall₂_same.mpr fun _ _ => rfl
    rw [List.forall₂_map_left_iff, List.forall₂_map_right_iff] at heq
    exact heq.imp fun v g => Violation.shownBy_of_failure
  have hlength : (Failure.sort gs).length = r.failureCount := by
    rw [Failure.sort, List.length_mergeSort, ← hshown.length_eq, length_violations]
  refine ⟨⟨gs, hshown, List.mergeSort_perm gs Failure.le, ?_⟩, ?_, hlength, ?_⟩
  · intro k
    exact Failure.ordersBy_key.filter_key_mergeSort k gs
  · exact (List.pairwise_mergeSort Failure.ordersBy_key.trans Failure.ordersBy_key.total gs).imp
      fun {g h} => (Failure.le_iff_rank_le g h).mp
  · rw [← List.length_eq_zero_iff, hlength, isPass, beq_iff_eq]

/-- A match result is not rendered if and only if it has a violation that is located behind the
text, and the error names such a violation.  Otherwise its failures show each of its violations
once, in a fixed order. -/
theorem failures_showsAll (r : MatchResult) (file : String) (index : LineIndex)
    (version : Version) :
    ((∃ e, r.failures file index version = .error e) ↔ ∃ e, r.Misplaced index e) ∧
      (∀ e, r.failures file index version = .error e → r.Misplaced index e) ∧
      ∀ fs, r.failures file index version = .ok fs → r.ShownBy file index version fs := by
  refine ⟨⟨?_, ?_⟩, fun e => misplaced_of_failures, fun fs => shownBy_of_failures⟩
  · rintro ⟨e, he⟩
    exact ⟨e, misplaced_of_failures he⟩
  · rintro ⟨e, he⟩
    cases hfailures : r.failures file index version with
    | error e' => exact ⟨e', rfl⟩
    | ok fs => exact absurd hfailures he.failures_ne_ok

end MatchResult

end InlineExpect
