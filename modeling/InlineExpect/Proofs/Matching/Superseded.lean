import Mathlib
import InlineExpect.Proofs.Matching.Accounting
import InlineExpect.Proofs.Matching.Pairing
import InlineExpect.Proofs.Matching.Violation

/-!
# Lines with duplicates

A line for which two assertions of one kind compete is reported as such, and as nothing else
(`Supersedes`).  The check looks at duplicates only when it goes through the diagnostics.  That it
neither compares a type nor misses a diagnostic for such a line is due to the assertions of a text
being tidy: a line with duplicates has no other assertion left.  And a diagnostic without a place is
not mistaken for one on such a line, since it is shown on the first line, which has no duplicates.

Which types the check compares, and for which lines, is told by the pairings behind the questions
that it asks (`ComparesTypes`).
-/

namespace InlineExpect

/-- A check of a file compares types by some pairings: these are all that it asks types for, and all
that it reports mismatches of. -/
structure ComparesTypes (o : Oracle Id) (f : SourceFile) (t : SyntaxTree) (pairs : List Pairing)
    (fs : List Failure) : Prop where
  tree : f.assertions.types ≠ [] → o.tree f.name = Except.ok t
  paired : Pairs o f.name t (t.FindsFirst f.lineIndex t.preorder.tail) t.preorder.tail
    f.assertions.types pairs
  asked : ∀ log, logged (checkFile o.recorded f) log =
    (.ok fs, log ++ .diagnostics f.name :: if f.assertions.types = [] then []
      else .tree f.name :: pairs.map (·.query f.name t))
  reported : ∀ g ∈ fs, g.kind = .typeMismatch → ∃ p ∈ pairs, ∃ m, p.mismatch? t = some m ∧
    (Violation.mismatch m).ShownBy f.name f.lineIndex o.version g

/-- A duplicate supersedes everything else on its line in the outcome of a check. -/
structure Supersedes (o : Oracle Id) (f : SourceFile) (ds : List Diagnostic) (pairs : List Pairing)
    (fs : List Failure) (d : Duplicate) : Prop where
  /-- One failure is about the duplicate, and names its kind. -/
  once : ∃ g, fs.filter (fun g => g.kind = .duplicateAssertion ∧ g.line = d.line) = [g] ∧
    (Violation.duplicate d).ShownBy f.name f.lineIndex o.version g ∧
    g.message = "This line has 2 " ++ d.kind.keyword ++ " assertions."
  not_missing : ∀ g ∈ fs, g.kind = .missingExpectedError → g.line ≠ d.line
  not_unmatched : ∀ g ∈ fs, g.kind = .unmatchedAssertion → g.line ≠ d.line
  /-- An unexpected diagnostic is neither shown on the line nor located there. -/
  not_unexpected : ∀ g ∈ fs, g.kind = .unexpectedDiagnostic → g.line ≠ d.line ∧
    ∃ x ∈ ds, x.line? f.lineIndex ≠ some d.line ∧
      (Violation.unexpected x).ShownBy f.name f.lineIndex o.version g
  not_paired : ∀ p ∈ pairs, p.line ≠ d.line

/-! ### The duplicates of a result -/

/-- Among things with different keys, one is found by its key. -/
lemma filter_key_eq_singleton {α κ : Type} [DecidableEq κ] {key : α → κ} {xs : List α} {x : α}
    (hkeys : (xs.map key).Nodup) (hx : x ∈ xs) : xs.filter (fun y => key y = key x) = [x] := by
  classical
  have hsame : xs.filter (fun y => key y = key x) = xs.filter fun y => y = x := by
    refine List.filter_congr fun y hy => decide_eq_decide.mpr ⟨?_, congrArg key⟩
    intro h
    exact List.inj_on_of_nodup_map hkeys hy hx h
  rw [hsame, List.filter_eq, List.count_eq_one_of_mem (hkeys.of_map _) hx, List.replicate_one]

namespace Violation

variable {file : String} {index : LineIndex} {version : Version} {v : Violation} {g : Failure}

/-- A violation is a duplicate on a line. -/
def IsDuplicateOn (v : Violation) (line : Nat) : Prop :=
  v.kind = .duplicateAssertion ∧ v.place = .line line

instance (v : Violation) (line : Nat) : Decidable (v.IsDuplicateOn line) :=
  inferInstanceAs (Decidable (_ ∧ _))

/-- A failure shows a duplicate on a line if it is about a duplicate and on the line. -/
lemma ShownBy.isDuplicateOn_iff (h : v.ShownBy file index version g) (line : Nat) :
    v.IsDuplicateOn line ↔ g.kind = .duplicateAssertion ∧ g.line = line := by
  unfold IsDuplicateOn
  rw [h.kind_eq]
  refine and_congr_right fun hkind => ?_
  cases v with
  | duplicate d =>
    obtain ⟨hline, -⟩ := h.standsAt
    rw [hline, place, Place.line.injEq]
  | mismatch m => cases hkind
  | unused line => cases hkind
  | unseen line => cases hkind
  | unexpected d => cases hkind

/-- Type mismatches are mismatches. -/
lemma kind_eq_typeMismatch_iff : v.kind = .typeMismatch ↔ ∃ m, v = .mismatch m := by
  cases v <;> simp [kind]

/-- Unexpected diagnostics are those that nothing expects. -/
lemma kind_eq_unexpectedDiagnostic_iff :
    v.kind = .unexpectedDiagnostic ↔ ∃ d, v = .unexpected d := by
  cases v <;> simp [kind]

/-- The wording of a duplicate names its kind. -/
lemma message_duplicate (d : Duplicate) (version : Version) :
    (Violation.duplicate d).message version =
      "This line has 2 " ++ d.kind.keyword ++ " assertions." := by
  have hformat : ∀ kind : AssertionKind, Template.duplicateAssertion.format [kind.keyword] =
      "This line has 2 " ++ kind.keyword ++ " assertions." := by
    intro kind
    cases kind <;> decide +kernel
  exact hformat d.kind

end Violation

/-- The duplicates on a line among the violations of a result are those that the result lists. -/
lemma MatchResult.filter_isDuplicateOn (r : MatchResult) (line : Nat) :
    r.violations.filter (·.IsDuplicateOn line) =
      (r.duplicates.filter (·.line = line)).map .duplicate := by
  have hother : ∀ {α : Type} (xs : List α) (mk : α → Violation) (kind : FailureKind),
      (∀ x, (mk x).kind = kind) → kind ≠ .duplicateAssertion →
        (xs.map mk).filter (·.IsDuplicateOn line) = [] := by
    intro α xs mk kind hmk hne
    rw [List.filter_eq_nil_iff]
    intro v hv hdup
    obtain ⟨x, -, rfl⟩ := List.mem_map.mp hv
    exact hne ((hmk x).symm.trans (of_decide_eq_true hdup).1)
  have hduplicates : (r.duplicates.map Violation.duplicate).filter (·.IsDuplicateOn line) =
      (r.duplicates.filter (·.line = line)).map .duplicate := by
    rw [List.filter_map]
    refine congrArg _ (List.filter_congr fun d _ => decide_eq_decide.mpr ?_)
    simp [Violation.IsDuplicateOn, Violation.kind, Violation.place]
  unfold violations
  simp only [List.filter_append, hduplicates,
    hother _ .mismatch .typeMismatch (fun _ => rfl) (by decide),
    hother _ .unused .unmatchedAssertion (fun _ => rfl) (by decide),
    hother _ .unseen .missingExpectedError (fun _ => rfl) (by decide),
    hother _ .unexpected .unexpectedDiagnostic (fun _ => rfl) (by decide), List.append_nil]

/-- A duplicate of a result that lists one for each line is shown by one failure. -/
lemma MatchResult.ShownBy.exists_filter_eq {r : MatchResult} {file : String} {index : LineIndex}
    {version : Version} {fs : List Failure} (h : r.ShownBy file index version fs)
    (hlines : (r.duplicates.map Duplicate.line).Nodup) {d : Duplicate} (hd : d ∈ r.duplicates) :
    ∃ g, fs.filter (fun g => g.kind = .duplicateAssertion ∧ g.line = d.line) = [g] ∧
      (Violation.duplicate d).ShownBy file index version g := by
  obtain ⟨gs, hshown, hperm, -⟩ := h.shown
  have hfilter := List.rel_filter
    (p := fun v : Violation => decide (v.IsDuplicateOn d.line))
    (q := fun g : Failure => decide (g.kind = .duplicateAssertion ∧ g.line = d.line))
    (fun v g hv => by simpa only [decide_eq_true_iff] using hv.isDuplicateOn_iff d.line) hshown
  rw [filter_isDuplicateOn, filter_key_eq_singleton hlines hd, List.map_singleton,
    List.forall₂_cons_left_iff] at hfilter
  obtain ⟨g, rest, hg, hrest, heq⟩ := hfilter
  rw [List.forall₂_nil_left_iff.mp hrest] at heq
  exact ⟨g, List.perm_singleton.mp (heq ▸ hperm.filter _), hg⟩

/-! ### Lines of failures -/

section Lines

variable {o : Oracle Id} {f : SourceFile} {s : AssertionSet} {ds : List Diagnostic}
  {x : Diagnostic} {g : Failure} {line : Nat}

/-- A failure that shows a diagnostic is on the line of the diagnostic, or on the first line if it
has no place. -/
lemma line_of_shownBy_unexpected
    (h : (Violation.unexpected x).ShownBy f.name f.lineIndex o.version g) :
    x.line? f.lineIndex = some g.line ∨ x.span = none ∧ g.line = 0 := by
  obtain ⟨-, hposition⟩ := h.standsAt
  have hline := (LineIndex.positionOf_eq_ok_iff_lineOf.mp hposition).1
  cases hspan : x.span with
  | some span =>
    rw [hspan, Option.getD_some] at hline
    exact .inl (Diagnostic.line?_of_lineOf hspan hline)
  | none =>
    rw [hspan, Option.getD_none] at hline
    have hzero : f.lineIndex.lineOf 0 = .ok 0 := LineIndex.lineOf_eq_ok_iff.mpr
      ⟨Nat.zero_le _, LineIndex.encloses_of_lineStart (LineIndex.starts_zero _)⟩
    exact .inr ⟨rfl, Except.ok.inj (hline.symm.trans hzero)⟩

/-- A diagnostic that is left over is not on a line with duplicates. -/
lemma line?_ne_of_leaves (h : s.leaves f.lineIndex x = true) (hline : line ∈ s.duplicateLines) :
    x.line? f.lineIndex ≠ some line := by
  intro hx
  have hdup : s.isDuplicateLine line = true := (s.isDuplicateLine_iff line).mpr hline
  unfold AssertionSet.leaves at h
  simp only [hx, hdup, Bool.not_true, Bool.false_and] at h
  cases h

end Lines

/-! ### Checks of files with duplicates -/

section Checking

variable {o : Oracle Id} {f : SourceFile} {fs : List Failure} {r : MatchResult} {g : Failure}

/-- The log of a check is that of the match of its assertions. -/
lemma logged_checkFile {log log' : List Query} (hr : logged
      (matchAssertions o.recorded f.name f.lineIndex f.assertions) log = (.ok r, log'))
    (hfailures : r.failures f.name f.lineIndex o.version = .ok fs) :
    logged (checkFile o.recorded f) log = (.ok fs, log') := by
  unfold checkFile
  dsimp only
  rw [logged_bind hr]
  exact logged_lookupIn _ hfailures

/-- A failure about a type shows the mismatch of a pairing, if all mismatches come from pairings. -/
lemma exists_pairing_of_mem {t : SyntaxTree} {pairs : List Pairing}
    (hfailures : r.failures f.name f.lineIndex o.version = .ok fs)
    (hmismatches : r.mismatches = pairs.filterMap (·.mismatch? t)) (hg : g ∈ fs)
    (hkind : g.kind = .typeMismatch) : ∃ p ∈ pairs, ∃ m, p.mismatch? t = some m ∧
      (Violation.mismatch m).ShownBy f.name f.lineIndex o.version g := by
  obtain ⟨v, hv, hshown⟩ := MatchResult.exists_shownBy_of_mem hfailures hg
  rw [hshown.kind_eq, Violation.kind_eq_typeMismatch_iff] at hkind
  obtain ⟨m, rfl⟩ := hkind
  have hm : m ∈ r.mismatches := MatchResult.mem_violations_iff.mp hv
  rw [hmismatches] at hm
  obtain ⟨p, hp, hpm⟩ := List.mem_filterMap.mp hm
  exact ⟨p, hp, m, hpm, hshown⟩

/-- A check that ends without an error compares types by some pairings. -/
lemma exists_comparesTypes (h : (checkFile o f).run = Except.ok fs) :
    ∃ t pairs, ComparesTypes o f t pairs fs := by
  obtain ⟨r, hr, hfailures⟩ := exists_result_of_checkFile h
  obtain ⟨ds, hds, hparts⟩ := exists_parts_of_matchAssertions hr
  by_cases hnil : f.assertions.types = []
  · -- Without expected types there is no pairing, and neither a question nor a mismatch.
    have hnone : r.mismatches = [] := by
      obtain ⟨-, rfl⟩ | ⟨-, d, m, -, hm, rfl⟩ := hparts
      · rfl
      · rw [hnil] at hm
        obtain rfl : {} = m := Except.ok.inj hm
        rfl
    refine ⟨default, [], fun hne => absurd hnil hne, ?_, ?_, ?_⟩
    · rw [hnil]
      exact ⟨by simp, by simp, by simp, by simp, List.nil_sublist _⟩
    · intro log
      rw [if_pos hnil]
      refine logged_checkFile ?_ hfailures
      rw [matchAssertions, logged_bind (logged_diagnostics hds)]
      obtain ⟨hempty, rfl⟩ | ⟨hempty, d, m, hd, hm, rfl⟩ := hparts
      · rw [if_pos hempty]
        rfl
      · rw [hnil] at hm
        obtain rfl : {} = m := Except.ok.inj hm
        rw [if_neg (Bool.eq_false_iff.mp hempty), logged_bind (logged_lookupIn _ hd), hnil]
        rfl
    · intro g hg hkind
      exact exists_pairing_of_mem hfailures hnone hg hkind
  · obtain ⟨hempty, -⟩ | ⟨hempty, d, m, hd, hm, rfl⟩ := hparts
    · simp [AssertionSet.isEmpty, hnil] at hempty
    obtain ⟨t, pairs, htree, hpairs, hmismatches, -, -, hlog⟩ :=
      exists_findsFirst_of_matchTree hnil f.nodup_types hm
    refine ⟨t, pairs, fun _ => htree, hpairs, ?_, ?_⟩
    · intro log
      rw [if_neg hnil]
      refine logged_checkFile ?_ hfailures
      rw [matchAssertions, logged_bind (logged_diagnostics hds),
        if_neg (Bool.eq_false_iff.mp hempty), logged_bind (logged_lookupIn _ hd),
        logged_bind (hlog _), logged_pure, List.append_assoc]
      rfl
    · intro g hg hkind
      exact exists_pairing_of_mem hfailures hmismatches hg hkind

/-- The expected types that are left over when the types of a file are compared are some of those
that there were. -/
lemma mem_types_of_mem_pending {file : String} {index : LineIndex} {types : List (Nat × String)}
    {m : TypeMatch} (hkeys : (types.map Prod.fst).Nodup)
    (h : (matchTree o file index types).run = Except.ok m) {q : Nat × String}
    (hq : q ∈ m.pending) : q ∈ types := by
  by_cases hnil : types = []
  · rw [hnil] at h
    obtain rfl : {} = m := Except.ok.inj h
    cases hq
  · obtain ⟨t, pairs, -, -, -, hpending, -⟩ := exists_findsFirst_of_matchTree hnil hkeys h
    rw [hpending] at hq
    exact List.mem_of_mem_filter hq

/-- A violation on a line with duplicates of tidy assertions is a duplicate or a mismatch. -/
lemma line_ne_of_tidy {s : AssertionSet} {lineCount line : Nat} {ds : List Diagnostic}
    {seenLines : List Nat} {m : TypeMatch} {v : Violation} (htidy : s.Tidy lineCount)
    (hline : line ∈ s.duplicateLines) (hm : ∀ q ∈ m.pending, q ∈ s.types)
    (hv : v ∈ (MatchResult.ofParts s ⟨seenLines, ds.filter (s.leaves f.lineIndex)⟩ m).violations)
    (hshown : v.ShownBy f.name f.lineIndex o.version g) (hdup : g.kind ≠ .duplicateAssertion)
    (hmis : g.kind ≠ .typeMismatch) : g.line ≠ line := by
  rintro rfl
  rw [MatchResult.mem_violations_iff] at hv
  cases v with
  | duplicate d => exact hdup hshown.kind_eq
  | mismatch m => exact hmis hshown.kind_eq
  | unused l =>
    obtain ⟨hl, -⟩ := hshown.standsAt
    obtain ⟨q, hq, hql⟩ := List.mem_map.mp hv
    exact htidy.not_mem_types _ hline (List.mem_map.mpr ⟨q, hm q hq, hql.trans hl.symm⟩)
  | unseen l =>
    obtain ⟨hl, -⟩ := hshown.standsAt
    rw [hl] at hline
    exact htidy.not_mem_errorLines _ hline (List.mem_of_mem_filter hv)
  | unexpected x =>
    rcases line_of_shownBy_unexpected hshown with hx | ⟨-, hzero⟩
    · exact line?_ne_of_leaves (List.of_mem_filter hv) hline hx
    · rw [hzero] at hline
      exact htidy.zero_not_mem hline

/-- A duplicate of tidy assertions supersedes everything else on its line. -/
lemma supersedes_of_tidy {t : SyntaxTree} {pairs : List Pairing} {ds : List Diagnostic}
    (htidy : f.assertions.Tidy f.lineIndex.lineCount) (h : (checkFile o f).run = Except.ok fs)
    (hds : o.diagnostics f.name = Except.ok ds) (hpairs : ComparesTypes o f t pairs fs)
    {d : Duplicate} (hd : d ∈ f.assertions.duplicates) : Supersedes o f ds pairs fs d := by
  have hline : d.line ∈ f.assertions.duplicateLines := List.mem_map_of_mem hd
  have hlines : (f.assertions.duplicates.map Duplicate.line).Nodup :=
    htidy.duplicateLines_ascending.imp fun hlt => hlt.ne
  obtain ⟨r, hr, hfailures⟩ := exists_result_of_checkFile h
  obtain ⟨ds', hds', ⟨hempty, -⟩ | ⟨-, dm, tm, hdm, htm, rfl⟩⟩ :=
    exists_parts_of_matchAssertions hr
  · simp only [AssertionSet.isEmpty, Bool.and_eq_true, List.isEmpty_iff] at hempty
    rw [hempty.2] at hd
    cases hd
  obtain rfl := Except.ok.inj (hds.symm.trans hds')
  rw [matchDiagnostics_eq_ok (startsWithin_of_matchDiagnostics hdm)] at hdm
  obtain rfl := Except.ok.inj hdm
  have helsewhere : ∀ k, k ≠ FailureKind.duplicateAssertion → k ≠ .typeMismatch →
      ∀ g ∈ fs, g.kind = k → g.line ≠ d.line := by
    rintro _ hdup hmis g hg rfl
    obtain ⟨v, hv, hshown⟩ := MatchResult.exists_shownBy_of_mem hfailures hg
    exact line_ne_of_tidy htidy hline (fun q => mem_types_of_mem_pending f.nodup_types htm) hv
      hshown hdup hmis
  refine ⟨?_, helsewhere _ (by decide) (by decide), helsewhere _ (by decide) (by decide), ?_, ?_⟩
  · obtain ⟨g, hone, hshown⟩ :=
      (MatchResult.shownBy_of_failures hfailures).exists_filter_eq hlines hd
    exact ⟨g, hone, hshown, hshown.message_eq.trans (Violation.message_duplicate d _)⟩
  · intro g hg hkind
    refine ⟨helsewhere _ (by decide) (by decide) g hg hkind, ?_⟩
    obtain ⟨v, hv, hshown⟩ := MatchResult.exists_shownBy_of_mem hfailures hg
    rw [hshown.kind_eq, Violation.kind_eq_unexpectedDiagnostic_iff] at hkind
    obtain ⟨x, rfl⟩ := hkind
    have hx := MatchResult.mem_violations_iff.mp hv
    exact ⟨x, List.mem_of_mem_filter hx, line?_ne_of_leaves (List.of_mem_filter hx) hline, hshown⟩
  · -- A pairing is made for an expected type, and the line has none left.
    intro p hp hpd
    have hmem := List.mem_map_of_mem (f := Prod.fst) (hpairs.paired.expected p hp)
    rw [hpd] at hmem
    exact htidy.not_mem_types _ hline hmem

/-- When a file that is no declaration file is checked without an error, each duplicate of its text
is reported once, and no failure, no question about a type and no mismatch is due to anything else
about its line. -/
theorem checkFile_supersedes (o : Oracle Id) (f : SourceFile) (fs : List Failure)
    (hdecl : f.isDeclaration = false) (h : (checkFile o f).run = Except.ok fs) :
    ∃ ds t pairs, o.diagnostics f.name = Except.ok ds ∧ ComparesTypes o f t pairs fs ∧
      ∀ d ∈ (AssertionSet.extract f.text.toList).duplicates, Supersedes o f ds pairs fs d := by
  have hassertions : f.assertions = AssertionSet.extract f.text.toList := by
    rw [SourceFile.assertions, hdecl, if_neg Bool.false_ne_true]
  have htidy := AssertionSet.tidy_extract f.text.toList
  obtain ⟨r, hr, -⟩ := exists_result_of_checkFile h
  obtain ⟨ds, hds, -⟩ := exists_parts_of_matchAssertions hr
  obtain ⟨t, pairs, hpairs⟩ := exists_comparesTypes h
  refine ⟨ds, t, pairs, hds, hpairs, ?_⟩
  intro d hd
  rw [← hassertions] at htidy hd
  exact supersedes_of_tidy htidy h hds hpairs hd

end Checking

/-- A file with two types for its second line and one for its third. -/
def contestedFile : SourceFile := ⟨"a.ts", String.ofList
  "// $ExpectType number\nx; // $ExpectType string\ny; // $ExpectType number\n".toList⟩

/-- An oracle that reports something about both lines of code in the contested file, and for which
nothing there is a number. -/
def contestedFileOracle : Oracle Id where
  version := .next
  tree _ := .ok <| ((TreeBuilder.start "a.ts" ⟨0, 72⟩).applyAll
    [.openNode .expressionStatement ⟨22, 2⟩, .leaf .identifier ⟨22, 1⟩, .closeNode,
      .openNode .expressionStatement ⟨47, 2⟩, .leaf .identifier ⟨47, 1⟩]).finish
  diagnostics _ := .ok [.located "a.ts" ⟨22, 1⟩ 2304 "x", .located "a.ts" ⟨47, 1⟩ 2304 "y"]
  typeOf _ _ := .ok "string"

/-- What does not match in the contested file. -/
def contestedFileResult : MatchResult where
  mismatches := [⟨4, ⟨47, 1⟩, "number", "string"⟩]
  unexpected := [.located "a.ts" ⟨47, 1⟩ 2304 "y"]
  duplicates := [⟨1, .type⟩]

/-- The failures of the contested file.  One of them is on the second line. -/
def contestedFailures : List Failure :=
  [⟨"a.ts", ⟨22, 0⟩, 1, 0, .duplicateAssertion, "This line has 2 $ExpectType assertions."⟩,
    ⟨"a.ts", ⟨47, 1⟩, 2, 0, .typeMismatch, "Expected type to be:\n  number\ngot:\n  string"⟩,
    ⟨"a.ts", ⟨47, 1⟩, 2, 0, .unexpectedDiagnostic, "TypeScript@next compile error: y"⟩]

/-- The contested file is checked without an error, and its duplicate supersedes everything else
on the second line. -/
theorem supersedes_contestedFile : contestedFile.isDeclaration = false ∧
    (checkFile contestedFileOracle contestedFile).run = Except.ok contestedFailures ∧
    ∃ ds t pairs, ComparesTypes contestedFileOracle contestedFile t pairs contestedFailures ∧
      Supersedes contestedFileOracle contestedFile ds pairs contestedFailures ⟨1, .type⟩ := by
  have hdecl : contestedFile.isDeclaration = false := by decide +kernel
  have hdup : (AssertionSet.extract contestedFile.text.toList).duplicates = [⟨1, .type⟩] := by
    decide +kernel
  have hmatch : Id.run (matchAssertions contestedFileOracle contestedFile.name
      contestedFile.lineIndex contestedFile.assertions).run = Except.ok contestedFileResult := by
    decide +kernel
  have hkinds : contestedFileResult.failuresByKind contestedFile.name contestedFile.lineIndex
      contestedFileOracle.version = .ok contestedFailures := by decide +kernel
  have hsort : Failure.sort contestedFailures = contestedFailures :=
    List.mergeSort_of_pairwise (by decide +kernel)
  have hfailures : contestedFileResult.failures contestedFile.name contestedFile.lineIndex
      contestedFileOracle.version = .ok contestedFailures := by
    rw [MatchResult.failures, hkinds]
    exact congrArg Except.ok hsort
  have hcheck : (checkFile contestedFileOracle contestedFile).run =
      Except.ok contestedFailures := by
    have hr : matchAssertions contestedFileOracle contestedFile.name contestedFile.lineIndex
        contestedFile.assertions = pure contestedFileResult := hmatch
    unfold checkFile
    dsimp only
    rw [hr, pure_bind, hfailures, lookupIn_ok]
    rfl
  obtain ⟨ds, t, pairs, -, hpairs, h⟩ := checkFile_supersedes _ _ _ hdecl hcheck
  exact ⟨hdecl, hcheck, ds, t, pairs, hpairs, h _ (hdup ▸ List.mem_singleton_self _)⟩

end InlineExpect
