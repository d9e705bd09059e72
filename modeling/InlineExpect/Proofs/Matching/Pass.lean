import Mathlib
import InlineExpect.Proofs.Assertion.Collector
import InlineExpect.Proofs.Matching.Rendering
import InlineExpect.Proofs.Matching.Walk
import InlineExpect.Proofs.Syntax.Preorder

/-!
# When a file passes

`checkFile` gives an empty list for a file that passes.  `Engine.Passes` says what that means
without mentioning how the check is done: it speaks of what the engine reports and of the first node
on a line, and neither of the walk through the tree nor of the order of the diagnostics.  The two
agree for every engine that answers, whose trees are built and whose places are places of the text.
-/

namespace InlineExpect

/-! ### The first node on a line -/

/-- A node is the first one on a line if it starts there and no node before it in preorder does.
The root does not count. -/
structure SyntaxTree.IsFirstOn (t : SyntaxTree) (index : LineIndex) (line : Nat) (id : NodeId) :
    Prop where
  ne_root : id ≠ root
  lt_size : id < t.size
  lineOf_start : index.lineOf (t.span id).start = .ok line
  before : ∀ j, j ≠ root → [j, id].Sublist t.preorder →
    index.lineOf (t.span j).start ≠ .ok line

/-- The nodes of a range stand in it in ascending order. -/
lemma pair_sublist_range_iff {n i j : Nat} : [i, j].Sublist (List.range n) ↔ i < j ∧ j < n := by
  constructor
  · intro h
    have hlt : [i, j].Pairwise (· < ·) := List.pairwise_lt_range.sublist h
    have hmem : j ∈ List.range n := h.subset (by simp)
    exact ⟨List.pairwise_pair.mp hlt, List.mem_range.mp hmem⟩
  · rintro ⟨hij, hjn⟩
    have hsub : [i, j] ⊆ List.range n := by
      intro x hx
      rw [List.mem_range]
      rcases List.mem_pair.mp hx with rfl | rfl
      · exact hij.trans hjn
      · exact hjn
    have hnodup : [i, j].Nodup := by simpa using hij.ne
    refine List.sublist_of_subperm_of_pairwise (r := (· ≤ ·)) (hnodup.subperm hsub) ?_ ?_
    · exact List.pairwise_pair.mpr hij.le
    · exact List.pairwise_le_range

/-- The root has the smallest number. -/
lemma SyntaxTree.ne_root_iff {id : NodeId} : id ≠ root ↔ 1 ≤ id := Nat.pos_iff_ne_zero.symm

/-- The walk through the nodes of a built tree finds the first node on a line. -/
lemma SyntaxTree.find?_startsOn_eq_some_iff {t : SyntaxTree} (ht : t.Built) {index : LineIndex}
    {line : Nat} {id : NodeId} :
    t.preorder.tail.find? (t.startsOn index line) = some id ↔ t.IsFirstOn index line id := by
  have hpre := preorder_eq_range ht
  have hnot : ∀ j, (!t.startsOn index line j) = true ↔
      index.lineOf (t.span j).start ≠ .ok line := by
    intro j
    rw [Bool.not_eq_true', Ne, ← startsOn_iff, Bool.not_eq_true]
  rw [hpre, List.tail_range, List.find?_range'_eq_some, startsOn_iff, List.mem_range'_1]
  constructor
  · rintro ⟨hline, ⟨hpos, hlt⟩, hbefore⟩
    refine ⟨ne_root_iff.mpr hpos, ?_, hline, fun j hj hsub => ?_⟩
    · have hsize : 1 < 1 + (t.size - 1) := hpos.trans_lt hlt
      have hle : 1 + (t.size - 1) ≤ t.size := by omega
      exact hlt.trans_le hle
    · rw [hpre, pair_sublist_range_iff] at hsub
      exact (hnot j).mp (hbefore j (ne_root_iff.mp hj) hsub.1)
  · rintro ⟨hroot, hlt, hline, hbefore⟩
    have hle : t.size ≤ 1 + (t.size - 1) := by omega
    refine ⟨hline, ⟨ne_root_iff.mp hroot, hlt.trans_le hle⟩, fun j hj hji => (hnot j).mpr ?_⟩
    refine hbefore j (ne_root_iff.mpr hj) ?_
    rw [hpre, pair_sublist_range_iff]
    exact ⟨hji, hlt⟩

/-! ### What it means to pass -/

/-- A diagnostic is located on a line of a file. -/
def Diagnostic.IsOn (d : Diagnostic) (f : SourceFile) (line : Nat) : Prop :=
  ∃ span, d.span = some span ∧ (LineIndex.ofText f.text.toList).lineOf span.start = .ok line

namespace Engine

/-- An engine reports a diagnostic for a file in a phase before the emission of code. -/
def Reports (e : Engine) (f : SourceFile) (d : Diagnostic) : Prop :=
  ∃ ds, e.diagnostics f.name = .ok ds ∧ d ∈ ds ∧ d.phase ≠ .emit

/-- The text of a type in full length. -/
def fullType (e : Engine) (file : String) (node : NodeId) : Except OracleError String :=
  e.typeText file node { noTruncation := true }

/-- An engine finds a type on a line: that of the first node on it, or of the expression if this
node is an expression statement. -/
def FindsType (e : Engine) (f : SourceFile) (line : Nat) (text : String) : Prop :=
  ∃ t id, e.tree f.name = .ok t ∧ t.IsFirstOn (LineIndex.ofText f.text.toList) line id ∧
    e.fullType f.name (t.unwrap id) = .ok text

/-- Every assertion about a file holds, and nothing is reported that is not asserted. -/
structure Satisfies (e : Engine) (f : SourceFile) (s : AssertionSet) : Prop where
  no_duplicates : s.duplicates = []
  expected : ∀ d, e.Reports f d → ∃ line ∈ s.errorLines, d.IsOn f line
  reported : ∀ line ∈ s.errorLines, ∃ d, e.Reports f d ∧ d.IsOn f line
  typed : ∀ p ∈ s.types, e.FindsType f p.1 p.2

/-- A file passes if its assertions hold, or if it has none and nothing is reported for it. -/
def Passes (e : Engine) (f : SourceFile) : Prop :=
  if f.isDeclaration ∨ (AssertionSet.extract f.text.toList).isEmpty then ∀ d, ¬ e.Reports f d
  else e.Satisfies f (AssertionSet.extract f.text.toList)

/-- An engine answers what it is asked for a file: the diagnostics, the tree if a type is asserted,
and the type of the first node on the line of each such assertion. -/
structure Answers (e : Engine) (f : SourceFile) : Prop where
  diagnostics : ∃ ds, e.diagnostics f.name = .ok ds
  tree : f.assertions.types ≠ [] → ∃ t, e.tree f.name = .ok t
  type : ∀ t, e.tree f.name = .ok t → ∀ p ∈ f.assertions.types, ∀ id,
    t.IsFirstOn (LineIndex.ofText f.text.toList) p.1 id →
      ∃ text, e.fullType f.name (t.unwrap id) = .ok text

/-- What an engine says of a file refers to places of its text. -/
structure Located (e : Engine) (f : SourceFile) : Prop where
  diagnostic : ∀ d, e.Reports f d → d.StartsWithin (Text.byteLength f.text.toList)
  node : ∀ t, e.tree f.name = .ok t → ∀ id < t.size,
    (t.span id).start ≤ Text.byteLength f.text.toList

end Engine

/-! ### The check and its meaning -/

/-- No line of a file has two expected types. -/
lemma SourceFile.nodup_types (f : SourceFile) : (f.assertions.types.map Prod.fst).Nodup := by
  unfold assertions
  split
  · exact List.nodup_nil
  · exact AssertionSet.nodup_types_extract _

/-- The pre-emission diagnostics of an engine are those that it reports. -/
lemma Diagnostic.mem_preEmit_iff {ds : List Diagnostic} {d : Diagnostic} :
    d ∈ preEmit ds ↔ d ∈ ds ∧ d.phase ≠ .emit := by
  unfold preEmit
  rw [(sort_perm _).mem_iff, List.mem_filter, isPreEmit, Phase.isPreEmit, bne_iff_ne]

/-- A diagnostic is located on the line that is looked up for it. -/
lemma Diagnostic.isOn_iff {d : Diagnostic} {f : SourceFile} {line : Nat} :
    d.IsOn f line ↔ d.line? (LineIndex.ofText f.text.toList) = some line :=
  line?_eq_some_iff.symm

namespace Engine

variable {e : Engine} {f : SourceFile} {ds : List Diagnostic}

/-- What an engine reports is what it is asked for, without the phase of emission. -/
lemma reports_iff (hds : e.diagnostics f.name = .ok ds) (d : Diagnostic) :
    e.Reports f d ↔ d ∈ Diagnostic.preEmit ds := by
  rw [Diagnostic.mem_preEmit_iff]
  constructor
  · rintro ⟨ds', hds', h⟩
    rw [hds] at hds'
    rwa [Except.ok.inj hds']
  · intro h
    exact ⟨ds, hds, h⟩

/-- The oracle that an engine is gives its pre-emission diagnostics. -/
lemma oracle_diagnostics (hds : e.diagnostics f.name = .ok ds) (version : Version) :
    (e.oracle version).diagnostics f.name = Except.ok (Diagnostic.preEmit ds) := by
  change (e.diagnostics f.name).map Diagnostic.preEmit = _
  rw [hds]
  rfl

/-- Every node of a located tree, and every number that is not one of a node, starts in the text. -/
lemma Located.start_le (h : e.Located f) {t : SyntaxTree} (ht : e.tree f.name = .ok t)
    (id : NodeId) : (t.span id).start ≤ (LineIndex.ofText f.text.toList).size := by
  rw [LineIndex.size_ofText]
  by_cases hid : id < t.size
  · exact h.node t ht id hid
  · have hnone : t.get? id = none := Array.getElem?_eq_none (not_lt.mp hid)
    rw [SyntaxTree.span, hnone]
    exact Nat.zero_le _

/-- What the comparison of types reports. -/
lemma Answers.exists_matchTree_eq_pure (h : e.Answers f) (hloc : e.Located f)
    (hbuilt : ∀ t, e.tree f.name = .ok t → t.Built) (version : Version)
    (hkeys : (f.assertions.types.map Prod.fst).Nodup) :
    ∃ r, matchTree (e.oracle version) f.name (LineIndex.ofText f.text.toList) f.assertions.types =
        pure r ∧
      (∀ x ∈ r.mismatches, x.span.start ≤ (LineIndex.ofText f.text.toList).size) ∧
      (r.mismatches = [] ∧ r.pending = [] ↔
        ∀ p ∈ f.assertions.types, e.FindsType f p.1 p.2) := by
  set index := LineIndex.ofText f.text.toList
  by_cases hnil : f.assertions.types = []
  · rw [hnil]
    exact ⟨{}, rfl, by simp, by simp⟩
  obtain ⟨t, ht⟩ := h.tree hnil
  have hfirst : ∀ line id, t.preorder.tail.find? (t.startsOn index line) = some id ↔
      t.IsFirstOn index line id := fun _ _ => SyntaxTree.find?_startsOn_eq_some_iff (hbuilt t ht)
  obtain ⟨r, hr, hspans, hiff⟩ := exists_matchTypes_eq_pure (e.oracle version) f.name index t
    f.assertions.types t.preorder.tail hkeys (fun id _ => hloc.start_le ht id)
    fun p hp id hid => h.type t ht p hp id ((hfirst p.1 id).mp hid)
  refine ⟨r, ?_, fun x hx => ?_, hiff.trans (forall₂_congr fun p _ => ?_)⟩
  · have hnonempty : f.assertions.types.isEmpty = false := by simpa using hnil
    have htree : (e.oracle version).tree f.name = Except.ok t := ht
    rw [matchTree, hnonempty, htree, askOracle_ok, pure_bind]
    exact hr
  · obtain ⟨id, hid⟩ := hspans x hx
    rw [hid]
    exact hloc.start_le ht id
  · constructor
    · rintro ⟨id, hid, htext⟩
      exact ⟨t, id, ht, (hfirst p.1 id).mp hid, htext⟩
    · rintro ⟨t', id, ht', hid, htext⟩
      rw [ht] at ht'
      obtain rfl := Except.ok.inj ht'
      exact ⟨id, (hfirst p.1 id).mpr hid, htext⟩

/-- A result without anything that does not match is that of a file whose assertions hold. -/
lemma failureCount_ofParts_eq_zero_iff (hds : e.diagnostics f.name = .ok ds) {s : AssertionSet}
    {t : TypeMatch}
    (ht : t.mismatches = [] ∧ t.pending = [] ↔ ∀ p ∈ s.types, e.FindsType f p.1 p.2) :
    let index := LineIndex.ofText f.text.toList
    (MatchResult.ofParts s
      ⟨((Diagnostic.preEmit ds).filterMap (·.line? index)).filter s.consumes,
        (Diagnostic.preEmit ds).filter (s.leaves index)⟩ t).failureCount = 0 ↔
      e.Satisfies f s := by
  intro index
  have hreports := reports_iff hds
  rw [MatchResult.failureCount_eq_zero_iff]
  simp only [MatchResult.ofParts, List.map_eq_nil_iff]
  constructor
  · rintro ⟨hm, hp, hunseen, hunexpected, hdup⟩
    rw [unexpected_eq_nil_iff hdup] at hunexpected
    rw [unseenErrorLines_eq_nil_iff hdup] at hunseen
    refine ⟨hdup, fun d hd => ?_, fun line hline => ?_, ht.mp ⟨hm, hp⟩⟩
    · obtain ⟨line, hline, hon⟩ := hunexpected d ((hreports d).mp hd)
      exact ⟨line, hline, Diagnostic.isOn_iff.mpr hon⟩
    · obtain ⟨d, hd, hon⟩ := hunseen line hline
      exact ⟨d, (hreports d).mpr hd, Diagnostic.isOn_iff.mpr hon⟩
  · rintro ⟨hdup, hexpected, hreported, htyped⟩
    obtain ⟨hm, hp⟩ := ht.mpr htyped
    rw [unexpected_eq_nil_iff hdup, unseenErrorLines_eq_nil_iff hdup]
    refine ⟨hm, hp, fun line hline => ?_, fun d hd => ?_, hdup⟩
    · obtain ⟨d, hd, hon⟩ := hreported line hline
      exact ⟨d, (hreports d).mp hd, Diagnostic.isOn_iff.mp hon⟩
    · obtain ⟨line, hline, hon⟩ := hexpected d ((hreports d).mpr hd)
      exact ⟨line, hline, Diagnostic.isOn_iff.mp hon⟩

/-- The assertions of a file are matched without an error, and nothing fails if the file passes. -/
lemma Answers.exists_matchAssertions_eq_pure (h : e.Answers f) (hloc : e.Located f)
    (hbuilt : ∀ t, e.tree f.name = .ok t → t.Built) (version : Version) :
    ∃ r, matchAssertions (e.oracle version) f.name (LineIndex.ofText f.text.toList) f.assertions =
        pure r ∧
      (∀ x ∈ r.mismatches, x.span.start ≤ (LineIndex.ofText f.text.toList).size) ∧
      (∀ d ∈ r.unexpected, d.StartsWithin (LineIndex.ofText f.text.toList).size) ∧
      (r.failureCount = 0 ↔ e.Passes f) := by
  obtain ⟨ds, hds⟩ := h.diagnostics
  have hreports := reports_iff hds
  have hwithin : ∀ d ∈ Diagnostic.preEmit ds,
      d.StartsWithin (LineIndex.ofText f.text.toList).size := by
    intro d hd
    rw [LineIndex.size_ofText]
    exact hloc.diagnostic d ((hreports d).mpr hd)
  unfold matchAssertions
  rw [oracle_diagnostics hds, askOracle_ok, pure_bind]
  by_cases hnone : f.isDeclaration = true ∨ (AssertionSet.extract f.text.toList).isEmpty = true
  · -- Nothing is asserted, and every diagnostic is a failure.
    have hempty : f.assertions.isEmpty = true := by
      unfold SourceFile.assertions
      split
      · rfl
      · rename_i hdecl
        exact hnone.resolve_left hdecl
    refine ⟨{ unexpected := Diagnostic.preEmit ds }, by rw [if_pos hempty], by simp, hwithin, ?_⟩
    rw [MatchResult.failureCount_eq_zero_iff, Passes, if_pos hnone]
    simp only [true_and, and_true, List.eq_nil_iff_forall_not_mem, hreports]
  · have hassertions : f.assertions = AssertionSet.extract f.text.toList := by
      unfold SourceFile.assertions
      rw [if_neg fun hdecl => hnone (.inl hdecl)]
    have hempty : ¬ f.assertions.isEmpty = true := by
      rw [hassertions]
      exact fun he => hnone (.inr he)
    obtain ⟨t, ht, hspans, hiff⟩ := h.exists_matchTree_eq_pure hloc hbuilt version f.nodup_types
    rw [if_neg hempty, matchDiagnostics_eq_ok hwithin, lookupIn_ok, pure_bind, ht, pure_bind]
    refine ⟨_, rfl, hspans, fun d hd => hwithin d (List.mem_of_mem_filter hd), ?_⟩
    rw [Passes, if_neg hnone, ← hassertions]
    exact failureCount_ofParts_eq_zero_iff hds hiff

/-- A file is checked without an error, and nothing fails if and only if it passes. -/
theorem checkFile_eq_nil_iff_passes (e : Engine) (f : SourceFile) (version : Version)
    (h : e.Answers f) (hloc : e.Located f) (hbuilt : ∀ t, e.tree f.name = .ok t → t.Built) :
    ∃ fs, (checkFile (e.oracle version) f).run = Except.ok fs ∧ (fs = [] ↔ e.Passes f) := by
  obtain ⟨r, hr, hm, hu, hiff⟩ := h.exists_matchAssertions_eq_pure hloc hbuilt version
  obtain ⟨fs, hfs, hlen⟩ := MatchResult.exists_failures_eq_ok f.name version hm hu
  refine ⟨fs, ?_, ?_⟩
  · have hversion : (e.oracle version).version = version := rfl
    unfold checkFile
    dsimp only
    rw [hr, pure_bind, hversion, hfs, lookupIn_ok]
    rfl
  · rw [← hiff, ← hlen, List.length_eq_zero_iff]

/-! ### A file that passes -/

/-- A file that expects a type on its first line and a diagnostic on its second. -/
def sampleFile : SourceFile := ⟨"a.ts", "x; // $ExpectType number\ny; // $ExpectError\n"⟩

/-- The tree of the sample file: two expression statements. -/
def sampleTree : SyntaxTree :=
  ((TreeBuilder.start "a.ts" ⟨0, 44⟩).applyAll
    [.openNode .expressionStatement ⟨0, 2⟩, .leaf .identifier ⟨0, 1⟩, .closeNode,
      .openNode .expressionStatement ⟨25, 2⟩, .leaf .identifier ⟨25, 1⟩]).finish

/-- An engine that knows the sample file.  It also reports something about the emission of code. -/
def sampleEngine : Engine where
  tree _ := .ok sampleTree
  diagnostics _ := .ok [⟨none, none, "emission skipped", 4094, .message, .emit⟩,
    .located "a.ts" ⟨25, 1⟩ 2304 "unknown name"]
  typeText _ node _ := .ok (if node = 2 then "number" else "any")

/-- The sample text, character by character. -/
lemma sampleFile_text : sampleFile.text.toList =
    ['x', ';', ' ', '/', '/', ' ', '$', 'E', 'x', 'p', 'e', 'c', 't', 'T', 'y', 'p', 'e', ' ',
      'n', 'u', 'm', 'b', 'e', 'r', '\n', 'y', ';', ' ', '/', '/', ' ', '$', 'E', 'x', 'p', 'e',
      'c', 't', 'E', 'r', 'r', 'o', 'r', '\n'] := by decide

/-- The assertions of the sample text. -/
lemma extract_sampleFile :
    AssertionSet.extract sampleFile.text.toList = ⟨[(0, "number")], [1], []⟩ := by
  have hmarker : hasMarker sampleFile.text.toList = true := by
    rw [sampleFile_text]
    decide +kernel
  have hbindings : bindings (LineCursor.start (LineIndex.ofText sampleFile.text.toList))
      (Comment.scan sampleFile.text.toList) =
        [⟨0, .type ['n', 'u', 'm', 'b', 'e', 'r']⟩, ⟨1, .error⟩] := by
    rw [sampleFile_text]
    decide +kernel
  rw [AssertionSet.extract, if_pos hmarker, AssertionSet.ofComments, hbindings]
  decide

/-- The size of the sample text. -/
lemma byteLength_sampleFile : Text.byteLength sampleFile.text.toList = 44 := by
  rw [sampleFile_text]
  decide +kernel

/-- The line of an offset of the sample text, from the places where its lines start. -/
lemma lineOf_sampleFile {pos line start next : Nat} (hstart : #[0, 25, 44][line]? = some start)
    (hnext : #[0, 25, 44][line + 1]? = some next) (hle : start ≤ pos) (hlt : pos < next)
    (hsize : pos ≤ 44) : (LineIndex.ofText sampleFile.text.toList).lineOf pos = .ok line := by
  have hstarts : (LineIndex.ofText sampleFile.text.toList).starts = #[0, 25, 44] := by
    rw [sampleFile_text]
    decide +kernel
  refine LineIndex.lineOf_eq_ok_of_contains (byteLength_sampleFile ▸ hsize) ⟨?_, ?_⟩
  · rw [hstarts]
    exact ⟨start, hstart, hle⟩
  · rw [hstarts, hnext]
    intro n hn
    exact Option.some.inj hn ▸ hlt

/-- The sample tree is built. -/
lemma built_sampleTree : sampleTree.Built := ⟨_, _, _, rfl⟩

/-- The first statement of the sample tree is the first node on the first line. -/
lemma isFirstOn_sampleTree :
    sampleTree.IsFirstOn (LineIndex.ofText sampleFile.text.toList) 0 1 where
  ne_root := by decide
  lt_size := by decide
  lineOf_start := lineOf_sampleFile rfl rfl le_rfl (show 0 < 25 by decide) (by decide)
  before j hj hsub := by
    rw [SyntaxTree.preorder_eq_range built_sampleTree, pair_sublist_range_iff] at hsub
    exact absurd hsub.1 (not_lt.mpr (SyntaxTree.ne_root_iff.mp hj))

/-- The sample engine reports one diagnostic before the emission of code. -/
lemma reports_sampleEngine_iff (d : Diagnostic) :
    sampleEngine.Reports sampleFile d ↔ d = .located "a.ts" ⟨25, 1⟩ 2304 "unknown name" := by
  have hds : sampleEngine.diagnostics sampleFile.name = .ok
      [⟨none, none, "emission skipped", 4094, .message, .emit⟩,
        .located "a.ts" ⟨25, 1⟩ 2304 "unknown name"] := rfl
  rw [reports_iff hds, Diagnostic.mem_preEmit_iff, List.mem_pair]
  constructor
  · rintro ⟨rfl | rfl, hphase⟩
    · exact absurd rfl hphase
    · rfl
  · rintro rfl
    exact ⟨.inr rfl, by decide⟩

/-- The sample engine answers what it is asked for the sample file. -/
lemma answers_sampleEngine : sampleEngine.Answers sampleFile where
  diagnostics := ⟨_, rfl⟩
  tree _ := ⟨_, rfl⟩
  type _ _ _ _ _ _ := ⟨_, rfl⟩

/-- What the sample engine says of the sample file refers to places of its text. -/
lemma located_sampleEngine : sampleEngine.Located sampleFile where
  diagnostic d hd := by
    rw [reports_sampleEngine_iff] at hd
    subst hd
    rw [byteLength_sampleFile]
    rintro span hspan
    obtain rfl := Option.some.inj hspan
    decide
  node t ht id hid := by
    obtain rfl := Except.ok.inj ht
    rw [byteLength_sampleFile]
    revert id
    decide

/-- The assertions about the sample file hold. -/
lemma passes_sampleEngine : sampleEngine.Passes sampleFile := by
  have hon : (Diagnostic.located "a.ts" ⟨25, 1⟩ 2304 "unknown name").IsOn sampleFile 1 :=
    ⟨⟨25, 1⟩, rfl, lineOf_sampleFile rfl rfl le_rfl (show 25 < 44 by decide) (by decide)⟩
  rw [Passes, extract_sampleFile, if_neg (by decide +kernel)]
  refine ⟨rfl, fun d hd => ⟨1, List.mem_singleton_self 1, ?_⟩, fun line hline => ?_, fun p hp => ?_⟩
  · rw [reports_sampleEngine_iff] at hd
    exact hd ▸ hon
  · rw [List.mem_singleton.mp hline]
    exact ⟨_, (reports_sampleEngine_iff _).mpr rfl, hon⟩
  · rw [List.mem_singleton.mp hp]
    exact ⟨sampleTree, 1, rfl, isFirstOn_sampleTree, rfl⟩

/-- The trees of the sample engine are built. -/
lemma built_sampleEngine (t : SyntaxTree) (ht : sampleEngine.tree sampleFile.name = .ok t) :
    t.Built :=
  Except.ok.inj ht ▸ built_sampleTree

/-- The sample engine answers with places of the sample file, which is checked without a failure. -/
theorem checkFile_sampleFile : sampleEngine.Answers sampleFile ∧ sampleEngine.Located sampleFile ∧
    (∀ t, sampleEngine.tree sampleFile.name = .ok t → t.Built) ∧ sampleEngine.Passes sampleFile ∧
    (checkFile (sampleEngine.oracle .next) sampleFile).run = Except.ok [] := by
  refine ⟨answers_sampleEngine, located_sampleEngine, built_sampleEngine, passes_sampleEngine, ?_⟩
  obtain ⟨fs, hfs, hiff⟩ := checkFile_eq_nil_iff_passes sampleEngine sampleFile .next
    answers_sampleEngine located_sampleEngine built_sampleEngine
  rw [hfs, hiff.mpr passes_sampleEngine]

end Engine

end InlineExpect
