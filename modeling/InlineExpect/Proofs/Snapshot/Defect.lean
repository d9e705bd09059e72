import Mathlib
import InlineExpect.Proofs.Json.Members
import InlineExpect.Proofs.Snapshot.Bounds
import InlineExpect.Proofs.Snapshot.Replay
import InlineExpect.Proofs.Text.ByteOrder

/-!
# Snapshots with defects

A document with a defect does not become a recording, and what is said of it is its first defect.
To build the tree of a file asks for the span of one node after the other, in preorder
(`RecordedNode.build_eq_error_iff`), so that the first node that ends before it starts is the error.
A file whose root is of the wrong kind is refused before (`FileRecord.build_eq_error_iff`), and the
files come in the order of the bytes of their names (`SnapshotDocument.pairwise_utf8_names`).
-/

namespace InlineExpect

namespace RecordedNode

/-! ### The first node that ends before it starts -/

/-- A tree runs forward if none of its nodes in preorder ends before it starts. -/
lemma runsForward_iff_preorder {n : RecordedNode} :
    n.RunsForward ↔ ∀ m ∈ n.preorder, m.start ≤ m.stop := by
  have hmem : ∀ m, m ∈ n.preorder ↔ ∃ p ∈ n.addresses, n.at? p = some m := by
    intro m
    rw [← List.mem_map, ← map_some_preorder, List.mem_map_of_injective (Option.some_injective _)]
  rw [runsForward_iff]
  constructor
  · intro h m hm
    obtain ⟨p, hp, hat⟩ := (hmem m).mp hm
    exact h p hp m hat
  · intro h p hp m hat
    exact h m ((hmem m).mpr ⟨p, hp, hat⟩)

lemma span_eq_error_iff {file : String} {n : RecordedNode} {fault : EngineFault} :
    n.span file = .error fault ↔
      n.stop < n.start ∧ fault = .invertedSpan n.kind file n.start n.stop := by
  rw [span]
  by_cases h : n.stop < n.start
  · rw [if_pos h, Except.error.injEq, eq_comm, and_iff_right h]
  · rw [if_neg h]
    constructor
    · intro hspan
      cases hspan
    · rintro ⟨hlt, -⟩
      exact absurd hlt h

lemma exists_span_eq_ok_iff {file : String} {n : RecordedNode} :
    (∃ span, n.span file = .ok span) ↔ n.start ≤ n.stop := by
  rw [span, ← not_lt]
  by_cases h : n.stop < n.start
  · rw [if_pos h]
    refine iff_of_false ?_ (not_not_intro h)
    rintro ⟨span, hspan⟩
    cases hspan
  · rw [if_neg h]
    exact iff_of_true ⟨_, rfl⟩ h

mutual

/-- To build a tree asks for the spans of its nodes in preorder. -/
theorem build_eq_error_iff (file : String) (b : TreeBuilder) (types : List (NodeId × String))
    (fault : EngineFault) : ∀ n : RecordedNode,
      build file b types n = .error fault ↔ n.preorder.mapM (span file) = .error fault
  | ⟨kind, start, stop, type, children⟩ => by
    rw [build, preorder, List.mapM_cons]
    cases span file ⟨kind, start, stop, type, children⟩ with
    | error fault' => exact error_eq_error_congr
    | ok s =>
      refine Iff.trans ?_ bind_pure_eq_error_iff.symm
      cases children with
      | nil => exact iff_of_false nofun nofun
      | cons child rest =>
        rw [← buildAll_eq_error_iff file (b.openNode kind s) types fault (child :: rest)]
        exact bind_pure_eq_error_iff

/-- To build some trees asks for the spans of their nodes in preorder. -/
theorem buildAll_eq_error_iff (file : String) (b : TreeBuilder) (types : List (NodeId × String))
    (fault : EngineFault) : ∀ ns : List RecordedNode,
      buildAll file b types ns = .error fault ↔ (preorderAll ns).mapM (span file) = .error fault
  | [] => by
    rw [buildAll, preorderAll]
    exact iff_of_false nofun nofun
  | n :: ns => by
    have hn := fun fault' => build_eq_error_iff file b types fault' n
    rw [buildAll, preorderAll, List.mapM_append]
    cases hbuild : build file b types n with
    | error fault' =>
      rw [(hn fault').mp hbuild]
      exact error_eq_error_congr
    | ok built =>
      cases hspans : n.preorder.mapM (span file) with
      | error fault' =>
        rw [(hn fault').mpr hspans] at hbuild
        cases hbuild
      | ok spans =>
        refine Iff.trans ?_ bind_pure_eq_error_iff.symm
        exact buildAll_eq_error_iff file built.1 built.2 fault ns

end

end RecordedNode

/-! ### The first defect of a file -/

namespace FileRecord

/-- A record has a defect: its root is not the node of a whole file, or one of its nodes ends before
it starts. -/
def Defective (record : FileRecord) : Prop :=
  record.tree.kind ≠ .sourceFile ∨ ∃ n ∈ record.tree.preorder, n.stop < n.start

/-- The first defect of a record, as it is said of the file: the kind of the root, or else the first
node in preorder that ends before it starts. -/
inductive FirstDefect (name : String) (record : FileRecord) : EngineFault → Prop
  | rootKind (root_kind : record.tree.kind ≠ .sourceFile) :
      FirstDefect name record (.rootKind name)
  | invertedSpan {before : List RecordedNode} {n : RecordedNode} {after : List RecordedNode}
      (root_kind : record.tree.kind = .sourceFile)
      (nodes_eq : record.tree.preorder = before ++ n :: after)
      (forward : ∀ m ∈ before, m.start ≤ m.stop) (inverted : n.stop < n.start) :
      FirstDefect name record (.invertedSpan n.kind name n.start n.stop)

variable {name : String} {record : FileRecord} {fault : EngineFault}

/-- The records that can be built are those without a defect. -/
lemma not_defective_iff : ¬ record.Defective ↔ record.Buildable := by
  rw [Defective, Buildable, RecordedNode.runsForward_iff_preorder, not_or, not_not]
  simp only [not_exists, not_and, not_lt]

/-- A record with a defect has a first one. -/
lemma exists_firstDefect_iff : (∃ fault, record.FirstDefect name fault) ↔ record.Defective := by
  constructor
  · rintro ⟨_, hroot | ⟨-, hnodes, -, hn⟩⟩
    · exact .inl hroot
    · exact .inr ⟨_, hnodes ▸ List.mem_append_cons_self, hn⟩
  · intro h
    by_cases hkind : record.tree.kind = .sourceFile
    · obtain ⟨n, hmem, hn⟩ := h.resolve_left (not_not.mpr hkind)
      have hsome : (record.tree.preorder.find? fun n => n.stop < n.start).isSome :=
        List.find?_isSome.mpr ⟨n, hmem, decide_eq_true hn⟩
      obtain ⟨m, hfind⟩ := Option.isSome_iff_exists.mp hsome
      obtain ⟨hm, before, after, hsplit, hbefore⟩ := List.find?_eq_some_iff_append.mp hfind
      refine ⟨_, .invertedSpan hkind hsplit (fun k hk => ?_) (of_decide_eq_true hm)⟩
      exact not_lt.mp (of_decide_eq_false (Bool.not_eq_true' _ ▸ hbefore k hk))
    · exact ⟨_, .rootKind hkind⟩

/-- A file is refused for its first defect. -/
lemma build_eq_error_iff : record.build name = .error fault ↔ record.FirstDefect name fault := by
  by_cases hkind : record.tree.kind = .sourceFile
  · have hspans : record.build name = .error fault ↔
        record.tree.preorder.mapM (·.span name) = .error fault := by
      rw [build, if_pos hkind, RecordedNode.preorder_eq, List.mapM_cons]
      cases record.tree.span name with
      | error fault' => exact error_eq_error_congr
      | ok s =>
        refine bind_pure_eq_error_iff.trans (Iff.trans ?_ bind_pure_eq_error_iff.symm)
        exact RecordedNode.buildAll_eq_error_iff name _ _ fault record.tree.children
    rw [hspans, mapM_eq_error_iff]
    simp only [RecordedNode.exists_span_eq_ok_iff, RecordedNode.span_eq_error_iff]
    constructor
    · rintro ⟨before, n, after, hnodes, hbefore, hn, rfl⟩
      exact .invertedSpan hkind hnodes hbefore hn
    · rintro (hroot | ⟨-, hnodes, hbefore, hn⟩)
      · exact absurd hkind hroot
      · exact ⟨_, _, _, hnodes, hbefore, hn, rfl⟩
  · rw [build, if_neg hkind]
    constructor
    · intro h
      obtain rfl := Except.error.inj h
      exact .rootKind hkind
    · rintro (hroot | ⟨hroot, -⟩)
      · rfl
      · exact absurd hroot hkind

/-- A file is built exactly if it has no defect. -/
lemma exists_build_eq_ok_iff : (∃ f, record.build name = .ok f) ↔ ¬ record.Defective := by
  constructor
  · rintro ⟨f, hf⟩ h
    obtain ⟨fault, hfault⟩ := exists_firstDefect_iff.mpr h
    rw [build_eq_error_iff.mpr hfault] at hf
    cases hf
  · intro h
    obtain ⟨f, hf, -⟩ := exists_build (not_defective_iff.mp h) name
    exact ⟨f, hf⟩

end FileRecord

/-! ### The first defect of a document -/

namespace SnapshotDocument

/-- What is built of one file. -/
def buildFile (q : String × FileRecord) : Except EngineFault (String × RecordedFile) := do
  return (q.1, ← q.2.build q.1)

variable {d : SnapshotDocument} {q : String × FileRecord} {fault : EngineFault}

lemma buildFile_eq_error_iff : buildFile q = .error fault ↔ q.2.FirstDefect q.1 fault :=
  bind_pure_eq_error_iff.trans FileRecord.build_eq_error_iff

lemma exists_buildFile_eq_ok_iff : (∃ f, buildFile q = .ok f) ↔ ¬ q.2.Defective := by
  have hbuilt : (∃ f, q.2.build q.1 = .ok f) ↔ ¬ q.2.Defective := FileRecord.exists_build_eq_ok_iff
  rw [← hbuilt]
  constructor
  · rintro ⟨built, h⟩
    obtain ⟨f, hf, -⟩ := bind_eq_ok_iff.mp h
    exact ⟨f, hf⟩
  · rintro ⟨f, hf⟩
    exact ⟨(q.1, f), bind_eq_ok_iff.mpr ⟨f, hf, rfl⟩⟩

/-- The files are built one after the other. -/
lemma build_eq_error_iff_mapM : d.build = .error fault ↔ d.files.mapM buildFile = .error fault :=
  bind_pure_eq_error_iff

/-- A document is refused for the first defect of its first file that has one. -/
lemma build_eq_error_iff :
    d.build = .error fault ↔ ∃ before name record after,
      d.files = before ++ (name, record) :: after ∧ (∀ q ∈ before, ¬ q.2.Defective) ∧
        record.FirstDefect name fault := by
  rw [build_eq_error_iff_mapM, mapM_eq_error_iff]
  simp only [exists_buildFile_eq_ok_iff, buildFile_eq_error_iff]
  exact exists_congr fun before => Prod.exists

/-- A document is refused exactly if one of its files has a defect. -/
lemma exists_build_eq_error_iff :
    (∃ fault, d.build = .error fault) ↔ ∃ q ∈ d.files, q.2.Defective := by
  constructor
  · rintro ⟨fault, h⟩
    obtain ⟨before, name, record, after, hfiles, -, hdefect⟩ := build_eq_error_iff.mp h
    exact ⟨(name, record), hfiles ▸ List.mem_append_cons_self,
      FileRecord.exists_firstDefect_iff.mp ⟨fault, hdefect⟩⟩
  · rintro ⟨q, hq, hdefective⟩
    cases hfiles : d.files.mapM buildFile with
    | error fault => exact ⟨fault, build_eq_error_iff_mapM.mpr hfiles⟩
    | ok files =>
      have hbuilt := exists_of_mapM_eq_ok hfiles q hq
      exact absurd hdefective (exists_buildFile_eq_ok_iff.mp hbuilt)

/-- The names of the files of a document that was read are in the order of their bytes. -/
lemma pairwise_utf8_names {text : String} (h : parse? text = some d) :
    (d.files.map Prod.fst).Pairwise fun a b => Text.utf8 a.toList < Text.utf8 b.toList := by
  obtain ⟨v, -, hv⟩ := Option.bind_eq_some_iff.mp h
  obtain ⟨fields, -, hfields⟩ := Option.bind_eq_some_iff.mp hv
  obtain ⟨version, -, hversion⟩ := Option.bind_eq_some_iff.mp hfields
  obtain ⟨files, hfiles, hd⟩ := Option.bind_eq_some_iff.mp hversion
  obtain rfl := Option.some.inj hd
  obtain ⟨w, -, hw⟩ := Option.bind_eq_some_iff.mp hfiles
  cases w with
  | object members =>
    obtain ⟨ms, -, rfl⟩ := Option.map_eq_some_iff.mp hw
    refine (Json.ascending_distinctMembers ms).imp fun hlt => ?_
    exact Text.utf8_lt_iff.mpr (String.lt_iff_toList_lt.mp hlt)
  | _ => cases hw

/-- A document with a defect does not become a recording, and its first defect is the error.  The
files come in the order of the bytes of their names, the nodes of a file in preorder.  No span is
ever made of bounds that are not in order, and those of a recording are made of all its nodes. -/
theorem build_firstDefect (d : SnapshotDocument) :
    ((∃ fault, d.build = .error fault) ↔ ∃ q ∈ d.files, q.2.Defective) ∧
    (∀ fault, d.build = .error fault ↔ ∃ before name record after,
      d.files = before ++ (name, record) :: after ∧ (∀ q ∈ before, ¬ q.2.Defective) ∧
        record.FirstDefect name fault) ∧
    (∀ text, parse? text = some d →
      ((d.files.map Prod.fst).Pairwise fun a b => Text.utf8 a.toList < Text.utf8 b.toList) ∧
      Recording.parse text = d.build.mapError .engine) ∧
    d.buildNoted.1 = d.build ∧ (∀ b ∈ d.buildNoted.2, b.1 ≤ b.2) ∧
    ∀ r, d.build = .ok r →
      d.buildNoted.2 = d.files.flatMap fun q => q.2.tree.preorder.map RecordedNode.bounds := by
  refine ⟨exists_build_eq_error_iff, fun fault => build_eq_error_iff, fun text h => ?_,
    d.buildNoted_spec⟩
  refine ⟨pairwise_utf8_names h, ?_⟩
  rw [Recording.parse, h]

-- The defect of the first file counts, and in this file the child of the first block comes before
-- the second block.
example : build ⟨none, [
    ("a.ts", ⟨⟨.sourceFile, 0, 4, none,
      [⟨.block, 0, 3, none, [⟨.identifier, 2, 1, none, []⟩]⟩, ⟨.block, 3, 0, none, []⟩]⟩, []⟩),
    ("b.ts", ⟨⟨.block, 4, 0, none, []⟩, []⟩)]⟩ =
      .error (.invertedSpan .identifier "a.ts" 2 1) := rfl

end SnapshotDocument

end InlineExpect
