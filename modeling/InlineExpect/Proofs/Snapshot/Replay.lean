import Mathlib
import InlineExpect.Proofs.Snapshot.Building

/-!
# Recordings replay their documents

A recording keeps everything that its document says of a file.  The tree has one node for each
recorded node, numbered in preorder, with its kind, its span, its parent and its children
(`RecordedFile.Holds`); the recorded tree can be read back from the built one and the types
(`RecordedFile.record`); and the text of a type is asked for under the number of the node that it
was recorded for (`RecordedNode.typeAnswer`).  `SnapshotDocument.exists_build_replays` shows this
for every document that can be recorded.
-/

namespace InlineExpect

/-! ### What a recording keeps of a tree -/

/-- A file holds a recorded tree: its nodes are those of the recorded tree, numbered by the order of
their addresses, and have the numbers of their parents and children there. -/
structure RecordedFile.Holds (f : RecordedFile) (root : RecordedNode) : Prop where
  size_eq : f.tree.size = root.addresses.length
  get?_eq : ∀ i p n, root.addresses[i]? = some p → root.at? p = some n → f.tree.get? i = some
    { kind := n.kind
      span := { start := n.start, length := n.stop - n.start }
      parent := if p = [] then none else some (root.number p.dropLast)
      children := (List.range n.children.length).map fun k => root.number (p ++ [k]) }
  types_eq : ∀ i p n, root.addresses[i]? = some p → root.at? p = some n →
    f.types.lookup i = n.type

/-- The recorded tree below a node, read back from the table of a file.  At most `fuel` levels are
read. -/
def RecordedFile.recordFrom (f : RecordedFile) : Nat → NodeId → RecordedNode
  | 0, _ => default
  | fuel + 1, id =>
    match f.tree.get? id with
    | none => default
    | some n =>
      { kind := n.kind
        start := n.span.start
        stop := n.span.stop
        type := f.types.lookup id
        children := n.children.map (f.recordFrom fuel) }

/-- The recorded tree of a file, read back from its table. -/
def RecordedFile.record (f : RecordedFile) : RecordedNode :=
  f.recordFrom f.tree.size SyntaxTree.root

/-- The full text of the type of a node, as a recorded tree has it. -/
def RecordedNode.typeAnswer (root : RecordedNode) (file : String) (i : NodeId) :
    Except OracleError String :=
  match root.addresses[i]?.bind root.at? with
  | none => .error (.unknownNode file i)
  | some n =>
    match n.type with
    | none => .error (.engine (.untyped i file))
    | some text => .ok text

/-- A recording keeps what was recorded of a file. -/
structure Recording.Keeps (r : Recording) (name : String) (record : FileRecord)
    (f : RecordedFile) : Prop where
  file_eq : r.file name = .ok f
  name_eq : f.tree.file = name
  diagnostics_eq : f.diagnostics = record.diagnostics
  holds : f.Holds record.tree
  record_eq : f.record = record.tree
  typeText_eq : ∀ i format, format.noTruncation = true →
    r.typeText name i format = record.tree.typeAnswer name i
  typeOf_eq : ∀ i version, (r.engine.oracle version).typeOf name i = record.tree.typeAnswer name i

/-- A recording keeps what its document says. -/
structure Recording.Replays (r : Recording) (d : SnapshotDocument) : Prop where
  version_eq : r.version = d.version
  names_eq : r.files.map Prod.fst = d.files.map Prod.fst
  keeps : ∀ name record, d.files.lookup name = some record → ∃ f, r.Keeps name record f

namespace RecordedFile.Holds

variable {f : RecordedFile} {root : RecordedNode}

/-- What a file holds can be read back, if enough levels are read. -/
lemma recordFrom_number (h : f.Holds root) (hroot : root.RunsForward) (fuel : Nat) :
    ∀ {p n}, root.at? p = some n → n.size ≤ fuel → f.recordFrom fuel (root.number p) = n := by
  induction fuel with
  | zero =>
    intro p n hn hle
    rw [RecordedNode.size_eq] at hle
    omega
  | succ fuel ih =>
    intro p n hn hle
    have hp := List.getElem?_idxOf (RecordedNode.mem_addresses_of_at? hn)
    have hchildren : (List.range n.children.length).map
        (fun k => f.recordFrom fuel (root.number (p ++ [k]))) = n.children := by
      refine List.ext_getElem (by simp) fun k hk hk' => ?_
      rw [List.getElem_map, List.getElem_range]
      have hlt := RecordedNode.size_lt_of_mem (List.getElem_mem hk')
      refine ih ?_ (by omega)
      rw [RecordedNode.at?_concat hn, List.getElem?_eq_getElem hk']
    have hstop : (Span.ofBounds n.start n.stop).stop = n.stop := Span.stop_ofBounds (hroot p n hn)
    rw [recordFrom, RecordedNode.number, h.get?_eq _ p n hp hn, h.types_eq _ p n hp hn]
    simp only [List.map_map, Function.comp_def, hchildren]
    cases n
    exact congrArg (RecordedNode.mk _ _ · _ _) hstop

/-- The recorded tree is what is read back from the table. -/
lemma record_eq (h : f.Holds root) (hroot : root.RunsForward) : f.record = root := by
  have hnumber : root.number [] = SyntaxTree.root := root.number_nil
  rw [record, ← hnumber]
  exact h.recordFrom_number hroot _ rfl h.size_eq.ge

/-- A recording answers with the types of the tree that it holds. -/
lemma typeText_eq (h : f.Holds root) {r : Recording} {name : String} (hf : r.file name = .ok f)
    (i : NodeId) {format : TypeFormat} (hformat : format.noTruncation = true) :
    r.typeText name i format = root.typeAnswer name i := by
  unfold Recording.typeText RecordedNode.typeAnswer
  rw [hf]
  cases hp : root.addresses[i]? with
  | none =>
    have hge : ¬ i < f.tree.size := by
      rw [h.size_eq]
      exact not_lt.mpr (List.getElem?_eq_none_iff.mp hp)
    change (if i < f.tree.size then _ else _) = _
    rw [if_neg hge]
    rfl
  | some p =>
    have hlt : i < f.tree.size := by
      rw [h.size_eq]
      exact (List.getElem?_eq_some_iff.mp hp).1
    obtain ⟨n, hn⟩ := Option.isSome_iff_exists.mp
      (RecordedNode.mem_addresses_iff.mp (List.mem_of_getElem? hp))
    change (if i < f.tree.size then _ else _) = _
    rw [if_pos hlt, h.types_eq i p n hp hn, Option.bind_some, hn]
    dsimp only
    cases n.type with
    | none => rfl
    | some text =>
      simp only [hformat, if_true]
      rfl

end RecordedFile.Holds

/-! ### Building a document -/

/-- A record can be built if its root is the node of a whole file, and no node of its tree ends
before it starts. -/
def FileRecord.Buildable (record : FileRecord) : Prop :=
  record.tree.kind = .sourceFile ∧ record.tree.RunsForward

instance (record : FileRecord) : Decidable record.Buildable := inferInstanceAs (Decidable (_ ∧ _))

/-- The table of a file is the one of its recorded tree. -/
lemma FileRecord.exists_build {record : FileRecord} (h : record.Buildable) (name : String) :
    ∃ f, record.build name = .ok f ∧ f.tree.file = name ∧ f.diagnostics = record.diagnostics ∧
      f.tree.nodes.toList = (record.tree.table none SyntaxTree.root).map (·.node) ∧
      ∀ i, f.types.lookup i = (record.tree.table none SyntaxTree.root)[i]?.bind (·.type) := by
  obtain ⟨hkind, hrun⟩ := h
  obtain ⟨⟨kind, start, stop, type, children⟩, diagnostics⟩ := record
  obtain rfl : kind = .sourceFile := hkind
  set root : RecordedNode := ⟨.sourceFile, start, stop, type, children⟩ with hroot
  set b := TreeBuilder.start name (.ofBounds start stop)
  have hfresh : b.Fresh (root.addType SyntaxTree.root []) := by
    intro j
    rw [RecordedNode.lookup_addType, if_neg (by simp [b, TreeBuilder.start, SyntaxTree.root])]
    rfl
  obtain ⟨b', types, hbuild, hgrows⟩ := RecordedNode.exists_buildAll name children b _
    (fun c hc => hrun.child hc) (Nat.zero_lt_one) hfresh
  refine ⟨⟨b'.finish, types, diagnostics⟩, ?_, hgrows.file, rfl, ?_, fun i => ?_⟩
  · rw [FileRecord.build, if_pos rfl, RecordedNode.span_eq_ok hrun]
    change (RecordedNode.buildAll name b _ children >>= _) = _
    rw [hbuild]
    rfl
  · change b'.nodes.toList = _
    rw [hgrows.nodes, hroot, RecordedNode.table]
    rfl
  · rw [hroot, RecordedNode.table]
    cases i with
    | zero =>
      rw [hgrows.types_of_lt 0 Nat.zero_lt_one, RecordedNode.lookup_addType]
      exact Option.or_none
    | succ i =>
      change types.lookup (i + 1) = _
      rw [Nat.add_comm i 1]
      exact hgrows.types_of_ge i

/-- A record that is built leads to a file that holds its tree. -/
lemma FileRecord.exists_build_holds {record : FileRecord} (h : record.Buildable) (name : String) :
    ∃ f, record.build name = .ok f ∧ f.tree.file = name ∧ f.diagnostics = record.diagnostics ∧
      f.Holds record.tree := by
  obtain ⟨f, hbuild, hname, hdiagnostics, hnodes, htypes⟩ := exists_build h name
  have hrow : ∀ i p n, record.tree.addresses[i]? = some p → record.tree.at? p = some n →
      (record.tree.table none SyntaxTree.root)[i]? = some _ := fun i p n hi hn =>
    RecordedNode.number_of_getElem? hi ▸ RecordedNode.getElem?_table hn
  refine ⟨f, hbuild, hname, hdiagnostics, ⟨?_, fun i p n hi hn => ?_, fun i p n hi hn => ?_⟩⟩
  · rw [SyntaxTree.size, ← Array.length_toList, hnodes, List.length_map,
      RecordedNode.length_table]
    rfl
  · rw [SyntaxTree.get?, ← Array.getElem?_toList, hnodes, List.getElem?_map, hrow i p n hi hn]
    simp only [Option.map_some, SyntaxTree.root, Nat.zero_add]
    rfl
  · rw [htypes, hrow i p n hi hn]
    rfl

/-- Records that can be built are built one after the other, and each is found under its name. -/
lemma exists_mapM_build {files : List (String × FileRecord)} (h : ∀ q ∈ files, q.2.Buildable) :
    ∃ fs : List (String × RecordedFile),
      (files.mapM fun q => do return (q.1, ← q.2.build q.1)) = Except.ok fs ∧
      fs.map Prod.fst = files.map Prod.fst ∧
      ∀ name record, files.lookup name = some record →
        ∃ f, fs.lookup name = some f ∧ record.build name = .ok f := by
  induction files with
  | nil => exact ⟨[], rfl, rfl, fun _ _ h => by cases h⟩
  | cons q files ih =>
    obtain ⟨name, record⟩ := q
    obtain ⟨f, hf, -⟩ := FileRecord.exists_build (h _ List.mem_cons_self) name
    obtain ⟨fs, hfs, hnames, hlookup⟩ := ih fun q hq => h q (List.mem_cons_of_mem _ hq)
    refine ⟨(name, f) :: fs, ?_, congrArg (name :: ·) hnames, fun other record' hother => ?_⟩
    · rw [List.mapM_cons, hfs, hf]
      rfl
    · rw [List.lookup_cons] at hother ⊢
      cases heq : other == name with
      | true =>
        rw [heq] at hother
        obtain rfl := Option.some.inj hother
        exact ⟨f, rfl, eq_of_beq heq ▸ hf⟩
      | false =>
        rw [heq] at hother
        exact hlookup other record' hother

namespace SnapshotDocument

/-- A document whose records can all be built leads to a recording that keeps everything it says. -/
theorem exists_build_replays (d : SnapshotDocument) (h : ∀ q ∈ d.files, q.2.Buildable) :
    ∃ r, d.build = .ok r ∧ r.Replays d ∧
      ∀ text, parse? text = some d → Recording.parse text = .ok r := by
  obtain ⟨fs, hfs, hnames, hlookup⟩ := exists_mapM_build h
  have hbuild : d.build = .ok ⟨d.version, fs⟩ := by
    rw [build, hfs]
    rfl
  refine ⟨⟨d.version, fs⟩, hbuild, ⟨rfl, hnames, fun name record hrecord => ?_⟩, fun text ht => ?_⟩
  · obtain ⟨f, hf, hrecorded⟩ := hlookup name record hrecord
    obtain ⟨before, after, heq, -⟩ := List.lookup_eq_some_iff.mp hrecord
    have hmem : (name, record) ∈ d.files := heq ▸ List.mem_append_cons_self
    obtain ⟨f', hf', hname, hdiagnostics, hholds⟩ :=
      FileRecord.exists_build_holds (h _ hmem) name
    obtain rfl : f = f' := Except.ok.inj (hrecorded.symm.trans hf')
    have hfile : Recording.file ⟨d.version, fs⟩ name = .ok f := by
      rw [Recording.file, hf]
    exact ⟨f, hfile, hname, hdiagnostics, hholds, hholds.record_eq (h _ hmem).2,
      fun i _ hformat => hholds.typeText_eq hfile i hformat,
      fun i _ => hholds.typeText_eq hfile i rfl⟩
  · rw [Recording.parse, ht]
    change d.build.mapError _ = _
    rw [hbuild]
    rfl

/-- A document with a file in which leaves and inner nodes, with and without types, take turns. -/
def sampleDocument : SnapshotDocument where
  version := some "5.0"
  files := [("a.ts",
    { tree := ⟨.sourceFile, 0, 9, none,
        [⟨.expressionStatement, 0, 4, none,
          [⟨.callExpression, 0, 3, some "void", [⟨.identifier, 0, 1, some "() => void", []⟩]⟩]⟩,
        ⟨.emptyStatement, 4, 4, none, []⟩,
        ⟨.expressionStatement, 5, 9, some "number", [⟨.numericLiteral, 5, 8, some "1", []⟩]⟩]⟩
      diagnostics := [] })]

/-- The sample document leads to a recording that keeps everything it says. -/
theorem exists_build_sampleDocument : (∀ q ∈ sampleDocument.files, q.2.Buildable) ∧
    ∃ r, sampleDocument.build = .ok r ∧ r.Replays sampleDocument ∧
      ∀ text, parse? text = some sampleDocument → Recording.parse text = .ok r := by
  have h : ∀ q ∈ sampleDocument.files, q.2.Buildable := by decide
  exact ⟨h, exists_build_replays sampleDocument h⟩

end SnapshotDocument

end InlineExpect
