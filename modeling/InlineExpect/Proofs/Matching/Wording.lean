import Mathlib
import InlineExpect.Proofs.Diagnostic.Template
import InlineExpect.Proofs.Matching.Violation
import InlineExpect.Proofs.Version.Reading

/-!
# What failures quote

The failure of a mismatch quotes the expected and the actual type, and the failure of an unexpected
diagnostic quotes a version and a message.  Both are templates with two places.  The second place is
filled in a text that has the first argument in it already, so that an expected type in which the
second place is written is not quoted as it is: the actual type stands in it instead
(`Template.format_expectedType`).  Versions have no brace in them, and a message is filled in
last, so that the failure of a diagnostic always quotes word for word
(`Template.format_compileError`).

`MatchResult.failures_quote` says this of all failures that a match result is rendered as.
-/

namespace InlineExpect

/-! ### Two templates -/

namespace Template

/-- The wording of a mismatch.  The actual type stands wherever the second place is written in the
expected type. -/
lemma format_expectedType (expected actual : String) :
    expectedType.format [expected, actual] = "Expected type to be:\n  " ++
      String.ofList (replaceAll (place 1) actual.toList expected.toList) ++ "\ngot:\n  " ++
        actual := by
  have htext : expectedType.text.toList = "Expected type to be:\n ".toList ++ ' ' ::
      (place 0 ++ '\n' :: ("got:\n ".toList ++ ' ' :: place 1)) := by decide
  have hfirst : ¬ place 0 <:+: "got:\n ".toList ++ ' ' :: place 1 := by decide
  have hfront : "Expected type to be:\n  ".toList = "Expected type to be:\n ".toList ++ [' '] := by
    decide
  have hmiddle : "\ngot:\n  ".toList = '\n' :: ("got:\n ".toList ++ [' ']) := by decide
  rw [format, fill, htext, List.map_cons, List.map_singleton, fillFrom, fillFrom, fillFrom,
    replaceAll_place (by decide) (by decide) (by decide) (by decide),
    replaceAll_eq_self (by decide) hfirst, replaceAll_append_cons (by decide) (by decide),
    replaceAll_append_cons (by decide) (by decide),
    replaceAll_place_end (by decide) (by decide) (by decide),
    replaceAll_eq_self (by decide) (by decide)]
  refine String.toList_inj.mp ?_
  simp only [String.toList_append, String.toList_ofList, hfront, hmiddle, List.append_assoc,
    List.cons_append, List.nil_append]

/-- The wording of an unexpected diagnostic.  Where the version has no brace, both arguments stand
in it word for word. -/
lemma format_compileError {version : String} (hversion : '\x7b' ∉ version.toList)
    (message : String) : compileError.format [version, message] =
      "TypeScript@" ++ version ++ " compile error: " ++ message := by
  have htext : compileError.text.toList = "TypeScript".toList ++ '@' ::
      (place 0 ++ ' ' :: ("compile error:".toList ++ ' ' :: place 1)) := by decide
  have hfirst : ¬ place 0 <:+: "compile error:".toList ++ ' ' :: place 1 := by decide
  have hsecond : ¬ place 1 <:+:
      "TypeScript".toList ++ '@' :: (version.toList ++ ' ' :: "compile error:".toList) := by
    intro hoccurs
    have hbrace := hoccurs.subset (show '\x7b' ∈ place 1 by decide)
    simp only [List.mem_append, List.mem_cons, hversion, false_or] at hbrace
    exact absurd hbrace (by decide)
  have hsplit : "TypeScript".toList ++ '@' ::
      (version.toList ++ ' ' :: ("compile error:".toList ++ ' ' :: place 1)) =
      ("TypeScript".toList ++ '@' :: (version.toList ++ ' ' :: "compile error:".toList)) ++
        ' ' :: place 1 := by simp
  have hfront : "TypeScript@".toList = "TypeScript".toList ++ ['@'] := by decide
  have hmiddle : " compile error: ".toList = ' ' :: ("compile error:".toList ++ [' ']) := by decide
  rw [format, fill, htext, List.map_cons, List.map_singleton, fillFrom, fillFrom, fillFrom,
    replaceAll_place (by decide) (by decide) (by decide) (by decide),
    replaceAll_eq_self (by decide) hfirst, hsplit,
    replaceAll_place_end (by decide) hsecond (by decide)]
  refine String.toList_inj.mp ?_
  simp only [String.toList_append, String.toList_ofList, hfront, hmiddle, List.append_assoc,
    List.cons_append, List.nil_append]

end Template

/-- Digits and a point are no brace, nor has `next` one. -/
lemma Version.brace_not_mem_text (v : Version) : '\x7b' ∉ v.text.toList := by
  cases v with
  | next => decide
  | release major minor =>
    have hdigits : ∀ n, '\x7b' ∉ Nat.toDigits 10 n := by
      intro n hmem
      exact absurd ((Text.denotes_toDigits n).isDigit _ hmem) (by decide)
    rw [toList_text_release, List.mem_append, List.mem_cons]
    rintro (h | h | h)
    · exact hdigits _ h
    · cases h
    · exact hdigits _ h

/-! ### The failures of a result -/

/-- A failure words a mismatch.  The expected type is cut at the second place of the template, and
its parts are quoted with the actual type between them.  So the expected type is quoted word for
word exactly if the second place is not written in it, or if that is what the actual type is. -/
structure Mismatch.WordedBy (m : Mismatch) (g : Failure) : Prop where
  span_eq : g.span = m.span
  message_eq : ∃ part parts,
    m.expected.toList = "\x7b1\x7d".toList.intercalate (part :: parts) ∧
      (∀ q ∈ part :: parts, ¬ "\x7b1\x7d".toList <:+: q) ∧
      g.message = "Expected type to be:\n  " ++
        String.ofList (m.actual.toList.intercalate (part :: parts)) ++ "\ngot:\n  " ++ m.actual
  verbatim_iff : g.message =
      "Expected type to be:\n  " ++ m.expected ++ "\ngot:\n  " ++ m.actual ↔
    ¬ "\x7b1\x7d".toList <:+: m.expected.toList ∨ m.actual = "\x7b1\x7d"

/-- A failure words an unexpected diagnostic, with the version and the message word for word. -/
structure Diagnostic.WordedBy (version : Version) (d : Diagnostic) (g : Failure) : Prop where
  span_eq : g.span = d.span.getD ⟨0, 0⟩
  verbatim : g.message = "TypeScript@" ++ version.text ++ " compile error: " ++ d.text

namespace Violation

variable {file : String} {index : LineIndex} {version : Version} {g : Failure}

lemma ShownBy.wordedBy_mismatch {m : Mismatch}
    (h : (Violation.mismatch m).ShownBy file index version g) : m.WordedBy g := by
  have hmessage : g.message = _ := h.message_eq.trans (Template.format_expectedType _ _)
  have hplace : Template.place 1 = "\x7b1\x7d".toList := by decide
  rw [hplace] at hmessage
  obtain ⟨part, parts, hexpected, hfree, hreplace⟩ :=
    Template.exists_parts (p := "\x7b1\x7d".toList) (by decide) m.expected.toList
  refine ⟨h.standsAt.1, ⟨part, parts, hexpected, hfree, ?_⟩, ?_⟩
  · rw [hmessage, hreplace]
  · rw [hmessage, String.append_left_inj, String.append_left_inj, String.append_right_inj,
      ← String.toList_inj, String.toList_ofList, Template.replaceAll_eq_self_iff (by decide),
      String.toList_inj]

lemma ShownBy.wordedBy_unexpected {d : Diagnostic}
    (h : (Violation.unexpected d).ShownBy file index version g) : d.WordedBy version g :=
  ⟨h.standsAt.1, h.message_eq.trans (Template.format_compileError version.brace_not_mem_text _)⟩

end Violation

namespace MatchResult

variable {r : MatchResult} {file : String} {index : LineIndex} {version : Version}
  {fs : List Failure}

/-- Of a list of violations of one kind, all are of this kind, and none is of another one. -/
lemma filter_kind_map {α : Type} (mk : α → Violation) {kind : FailureKind}
    (hmk : ∀ x, (mk x).kind = kind) (k : FailureKind) (xs : List α) :
    (xs.map mk).filter (·.kind = k) = if kind = k then xs.map mk else [] := by
  by_cases h : kind = k
  · rw [if_pos h, List.filter_eq_self]
    simp [hmk, h]
  · rw [if_neg h, List.filter_eq_nil_iff]
    simp [hmk, h]

/-- The violations of one kind are those of one list. -/
lemma filter_kind_violations (r : MatchResult) (k : FailureKind) :
    r.violations.filter (·.kind = k) =
      match k with
      | .duplicateAssertion => r.duplicates.map .duplicate
      | .typeMismatch => r.mismatches.map .mismatch
      | .unmatchedAssertion => r.unusedLines.map .unused
      | .missingExpectedError => r.unseenErrorLines.map .unseen
      | .unexpectedDiagnostic => r.unexpected.map .unexpected := by
  unfold violations
  simp only [List.filter_append, filter_kind_map Violation.duplicate fun _ => rfl,
    filter_kind_map Violation.mismatch fun _ => rfl, filter_kind_map Violation.unused fun _ => rfl,
    filter_kind_map Violation.unseen fun _ => rfl,
    filter_kind_map Violation.unexpected fun _ => rfl]
  cases k <;> simp

/-- The failures of one kind show the violations of this kind, one by one. -/
lemma ShownBy.exists_forall₂_kind (h : r.ShownBy file index version fs) (k : FailureKind) :
    ∃ gs, (fs.filter (·.kind = k)).Perm gs ∧
      List.Forall₂ (Violation.ShownBy file index version)
        (r.violations.filter (·.kind = k)) gs := by
  obtain ⟨gs, hshown, hperm, -⟩ := h.shown
  refine ⟨gs.filter (·.kind = k), hperm.filter _, ?_⟩
  refine List.rel_filter (fun v g hv => ?_) hshown
  simp only [decide_eq_true_iff, hv.kind_eq]

/-- The failures as which a result is rendered quote what does not match.  Those of diagnostics do
so word for word.  Those of mismatches do exactly if the second place of their template is not
written in the expected type, or is the actual type. -/
theorem failures_quote (h : r.failures file index version = .ok fs) :
    (∃ gs, (fs.filter (·.kind = .typeMismatch)).Perm gs ∧
        List.Forall₂ Mismatch.WordedBy r.mismatches gs) ∧
      ∃ gs, (fs.filter (·.kind = .unexpectedDiagnostic)).Perm gs ∧
        List.Forall₂ (Diagnostic.WordedBy version) r.unexpected gs := by
  have hshown := shownBy_of_failures h
  constructor
  · obtain ⟨gs, hperm, hgs⟩ := hshown.exists_forall₂_kind .typeMismatch
    rw [filter_kind_violations, List.forall₂_map_left_iff] at hgs
    exact ⟨gs, hperm, hgs.imp fun _ _ => Violation.ShownBy.wordedBy_mismatch⟩
  · obtain ⟨gs, hperm, hgs⟩ := hshown.exists_forall₂_kind .unexpectedDiagnostic
    rw [filter_kind_violations, List.forall₂_map_left_iff] at hgs
    exact ⟨gs, hperm, hgs.imp fun _ _ => Violation.ShownBy.wordedBy_unexpected⟩

/-- Two mismatches, of which the second one has a place in its expected type, and a diagnostic with
places in its message. -/
def samplePlaces : MatchResult where
  mismatches := [⟨2, ⟨0, 1⟩, "string", "number"⟩, ⟨5, ⟨3, 1⟩, "\"\x7b1\x7d\"", "number"⟩]
  unexpected := [.located "a.ts" ⟨3, 1⟩ 2304 "Missing \x7b0\x7d and \x7b1\x7d."]

/-- The failures of the sample.  The second one quotes another expected type than the sample has. -/
def samplePlacesFailures : List Failure :=
  [⟨"a.ts", ⟨0, 1⟩, 0, 0, .typeMismatch, "Expected type to be:\n  string\ngot:\n  number"⟩,
    ⟨"a.ts", ⟨3, 1⟩, 0, 3, .typeMismatch, "Expected type to be:\n  \"number\"\ngot:\n  number"⟩,
    ⟨"a.ts", ⟨3, 1⟩, 0, 3, .unexpectedDiagnostic,
      "TypeScript@5.0 compile error: Missing \x7b0\x7d and \x7b1\x7d."⟩]

/-- The sample is rendered. -/
lemma failures_samplePlaces_eq :
    samplePlaces.failures "a.ts" (.ofText "x; y;".toList) (.release 5 0) =
      .ok samplePlacesFailures := by
  have hkinds : samplePlaces.failuresByKind "a.ts" (.ofText "x; y;".toList) (.release 5 0) =
      .ok samplePlacesFailures := by decide +kernel
  have hsort : Failure.sort samplePlacesFailures = samplePlacesFailures :=
    List.mergeSort_of_pairwise (by decide +kernel)
  rw [failures, hkinds]
  exact congrArg Except.ok hsort

/-- The failures of the sample quote what does not match. -/
theorem failures_quote_samplePlaces :
    samplePlaces.failures "a.ts" (.ofText "x; y;".toList) (.release 5 0) =
        .ok samplePlacesFailures ∧
      (∃ gs, (samplePlacesFailures.filter (·.kind = .typeMismatch)).Perm gs ∧
        List.Forall₂ Mismatch.WordedBy samplePlaces.mismatches gs) ∧
      ∃ gs, (samplePlacesFailures.filter (·.kind = .unexpectedDiagnostic)).Perm gs ∧
        List.Forall₂ (Diagnostic.WordedBy (.release 5 0)) samplePlaces.unexpected gs :=
  ⟨failures_samplePlaces_eq, failures_quote failures_samplePlaces_eq⟩

/-- A type of strings in which the second place is written is expected, and a failure quotes another
type. -/
theorem not_verbatim_samplePlaces :
    ∃ m ∈ samplePlaces.mismatches, ∃ fs,
      samplePlaces.failures "a.ts" (.ofText "x; y;".toList) (.release 5 0) = .ok fs ∧
      (∃ g ∈ fs, g.kind = .typeMismatch ∧ g.span = m.span) ∧
      ∀ g ∈ fs, g.message ≠
        "Expected type to be:\n  " ++ m.expected ++ "\ngot:\n  " ++ m.actual :=
  ⟨⟨5, ⟨3, 1⟩, "\"\x7b1\x7d\"", "number"⟩, by decide, samplePlacesFailures,
    failures_samplePlaces_eq, by decide, by decide⟩

end MatchResult

end InlineExpect
