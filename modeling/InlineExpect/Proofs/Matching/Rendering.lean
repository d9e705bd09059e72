import Mathlib
import InlineExpect.Matching.Result
import InlineExpect.Proofs.Matching.Diagnostics
import InlineExpect.Proofs.Traversal

/-!
# Rendering what does not match

A match result is rendered as one failure for each thing that does not match.  The rendering itself
fails only on a span that starts behind the text, so that a result all of whose spans start in the
text has as many failures as it counts (`MatchResult.exists_failures_eq_ok`).
-/

namespace InlineExpect

namespace MatchResult

variable (file : String) {index : LineIndex} (version : Version) {r : MatchResult}

/-- A span that starts in the text is rendered. -/
lemma exists_spanFailure_eq_ok {span : Span} (h : span.start ≤ index.size) (kind : FailureKind)
    (message : String) : ∃ g, spanFailure file index kind message span = .ok g := by
  obtain ⟨position, hposition⟩ := LineIndex.exists_positionOf h
  unfold spanFailure
  rw [hposition]
  exact ⟨_, rfl⟩

/-- A diagnostic that is located in the text, or not located at all, is rendered. -/
lemma exists_diagnosticFailure_eq_ok {d : Diagnostic} (h : d.StartsWithin index.size) :
    ∃ g, diagnosticFailure file index version d = .ok g := by
  refine exists_spanFailure_eq_ok file ?_ _ _
  cases hspan : d.span with
  | none => exact Nat.zero_le _
  | some span => exact h span hspan

/-- A result whose spans all start in the text is rendered with one failure for each thing that does
not match. -/
theorem exists_failures_eq_ok (hm : ∀ x ∈ r.mismatches, x.span.start ≤ index.size)
    (hu : ∀ d ∈ r.unexpected, d.StartsWithin index.size) :
    ∃ fs, r.failures file index version = .ok fs ∧ fs.length = r.failureCount := by
  obtain ⟨gs, hgs, hgs_length⟩ := exists_mapM_eq_ok fun x hx =>
    exists_spanFailure_eq_ok file (hm x hx) .typeMismatch
      (Template.expectedType.format [x.expected, x.actual])
  obtain ⟨us, hus, hus_length⟩ := exists_mapM_eq_ok fun d hd =>
    exists_diagnosticFailure_eq_ok file version (hu d hd)
  unfold failures failuresByKind mismatchFailure
  rw [hgs, hus]
  refine ⟨_, rfl, ?_⟩
  rw [Failure.sort, List.length_mergeSort]
  simp only [List.length_append, List.length_map, hgs_length, hus_length, failureCount]
  omega

/-- A result fails nothing if it lists nothing. -/
lemma failureCount_eq_zero_iff : r.failureCount = 0 ↔
    r.mismatches = [] ∧ r.unusedLines = [] ∧ r.unseenErrorLines = [] ∧ r.unexpected = [] ∧
      r.duplicates = [] := by
  unfold failureCount
  simp only [Nat.add_eq_zero_iff, List.length_eq_zero_iff, and_assoc]

end MatchResult

end InlineExpect
