import Mathlib
import InlineExpect.Proofs.Snapshot.Address
import InlineExpect.Proofs.Traversal
import InlineExpect.Snapshot.Recording

/-!
# The bounds of which spans are made

The bounds of a recorded node are compared before a span is made of them, so that no span is ever
made of bounds that are not in order.  To say so, recordings are built with the effects that the
making of a span may have (`SnapshotDocument.buildVia`).  The effect that matters here is a note of
the bounds (`SnapshotDocument.buildNoted`): it leaves the recording as it is, it has no bounds that
are not in order, and the bounds of all nodes are in it if there is a recording
(`SnapshotDocument.buildNoted_spec`).
-/

namespace InlineExpect

section Via

variable {m : Type → Type} [Monad m] [MonadExceptOf EngineFault m] (ofBounds : Nat × Nat → m Span)

namespace RecordedNode

/-- The stretch of a node, where spans are made with the effects of `m`. -/
def spanVia (file : String) (n : RecordedNode) : m Span :=
  if n.stop < n.start then throw (.invertedSpan n.kind file n.start n.stop)
  else ofBounds (n.start, n.stop)

mutual

/-- Adds a recorded node and all nodes below it to a tree, where spans are made with the effects of
`m`. -/
def buildVia (file : String) (b : TreeBuilder) (types : List (NodeId × String)) :
    RecordedNode → m (TreeBuilder × List (NodeId × String))
  | ⟨kind, start, stop, type, children⟩ => do
    let n : RecordedNode := ⟨kind, start, stop, type, children⟩
    let span ← n.spanVia ofBounds file
    match children with
    | [] => return (b.leaf kind span, n.addType b.nextId types)
    | child :: rest =>
      let (inner, types) ← buildAllVia file (b.openNode kind span) types (child :: rest)
      return (inner.closeNode, n.addType b.nextId types)

/-- Adds some recorded nodes, where spans are made with the effects of `m`. -/
def buildAllVia (file : String) (b : TreeBuilder) (types : List (NodeId × String)) :
    List RecordedNode → m (TreeBuilder × List (NodeId × String))
  | [] => return (b, types)
  | n :: ns => do
    let (b, types) ← buildVia file b types n
    buildAllVia file b types ns

end

end RecordedNode

/-- The record of a file with its tree built, where spans are made with the effects of `m`. -/
def FileRecord.buildVia (file : String) (r : FileRecord) : m RecordedFile := do
  if r.tree.kind = .sourceFile then
    let span ← r.tree.spanVia ofBounds file
    let types := r.tree.addType SyntaxTree.root []
    let (b, types) ←
      RecordedNode.buildAllVia ofBounds file (TreeBuilder.start file span) types r.tree.children
    return ⟨b.finish, types, r.diagnostics⟩
  else throw (.rootKind file)

/-- The recording of a document, where spans are made with the effects of `m`. -/
def SnapshotDocument.buildVia (d : SnapshotDocument) : m Recording := do
  return ⟨d.version, ← d.files.mapM fun p => do return (p.1, ← p.2.buildVia ofBounds p.1)⟩

end Via

/-! ### A note of the bounds -/

/-- Computations that take a note of bounds. -/
abbrev NotingM : Type → Type := ExceptT EngineFault (StateM (List (Nat × Nat)))

/-- A span, the bounds of which are noted before it is made of them. -/
def notedSpan : Nat × Nat → NotingM Span :=
  logging fun bounds => .ok (.ofBounds bounds.1 bounds.2)

/-- The recording of a document, and the bounds of all spans that are made on the way. -/
def SnapshotDocument.buildNoted (d : SnapshotDocument) :
    Except EngineFault Recording × List (Nat × Nat) :=
  (d.buildVia notedSpan).run.run []

/-- The bounds of a recorded node. -/
def RecordedNode.bounds (n : RecordedNode) : Nat × Nat := (n.start, n.stop)

/-- A computation has the result `y`, and adds only bounds in order to the note.  If there is a
result, these are the bounds of some nodes. -/
def Notes {α : Type} (x : NotingM α) (y : Except EngineFault α) (ns : List RecordedNode) : Prop :=
  ∀ log, ∃ noted, x.run.run log = (y, log ++ noted) ∧ (∀ b ∈ noted, b.1 ≤ b.2) ∧
    ∀ a, y = .ok a → noted = ns.map RecordedNode.bounds

section Notes

variable {α β : Type} {x : NotingM α} {y : Except EngineFault α} {f : α → NotingM β}
  {g : α → Except EngineFault β} {ns ms : List RecordedNode}

lemma notes_pure (a : α) : Notes (pure a) (.ok a) [] :=
  fun log => ⟨[], by rw [List.append_nil]; rfl, List.forall_mem_nil _, fun _ _ => rfl⟩

lemma notes_throw (fault : EngineFault) (ns : List RecordedNode) :
    Notes (throw fault : NotingM α) (.error fault) ns :=
  fun log => ⟨[], by rw [List.append_nil]; rfl, List.forall_mem_nil _, fun _ h => by cases h⟩

/-- What two computations note stands one behind the other. -/
lemma Notes.bind (hx : Notes x y ns) (hf : ∀ a, Notes (f a) (g a) ms) :
    Notes (x >>= f) (y >>= g) (ns ++ ms) := by
  intro log
  obtain ⟨noted, hrun, hforward, hnoted⟩ := hx log
  rw [ExceptT.run_bind, StateT.run_bind, hrun]
  cases y with
  | error fault => exact ⟨noted, rfl, hforward, fun _ h => by cases h⟩
  | ok a =>
    obtain ⟨noted', hrun', hforward', hnoted'⟩ := hf a (log ++ noted)
    refine ⟨noted ++ noted', ?_, List.forall_mem_append.mpr ⟨hforward, hforward'⟩, fun b hb => ?_⟩
    · rw [← List.append_assoc]
      exact hrun'
    · rw [hnoted a rfl, hnoted' b hb, List.map_append]

/-- A computation for each entry of a list. -/
lemma notes_mapM {nodes : α → List RecordedNode} (h : ∀ a, Notes (f a) (g a) (nodes a))
    (as : List α) : Notes (as.mapM f) (as.mapM g) (as.flatMap nodes) := by
  induction as with
  | nil => exact notes_pure []
  | cons a as ih =>
    rw [List.mapM_cons, List.mapM_cons, List.flatMap_cons]
    refine (h a).bind fun b => ?_
    rw [← List.append_nil (as.flatMap nodes)]
    exact ih.bind fun bs => notes_pure (b :: bs)

/-- A computation that goes on without a note. -/
lemma Notes.bind_pure (hx : Notes x y ns) (h : α → β) :
    Notes (x >>= fun a => pure (h a)) (y >>= fun a => .ok (h a)) ns := by
  rw [← List.append_nil ns]
  exact hx.bind fun a => notes_pure (h a)

/-- A span is made of the bounds of a node only if they are in order. -/
lemma notes_spanVia (file : String) (n : RecordedNode) :
    Notes (n.spanVia notedSpan file) (n.span file) [n] := by
  rw [RecordedNode.spanVia, RecordedNode.span]
  by_cases h : n.stop < n.start
  · rw [if_pos h, if_pos h]
    exact notes_throw _ _
  · rw [if_neg h, if_neg h]
    intro log
    exact ⟨[n.bounds], rfl, List.forall_mem_singleton.mpr (not_lt.mp h), fun _ _ => rfl⟩

mutual

/-- To build a tree notes the bounds of its nodes. -/
theorem notes_build (file : String) (b : TreeBuilder) (types : List (NodeId × String)) :
    ∀ n : RecordedNode, Notes (RecordedNode.buildVia notedSpan file b types n)
      (RecordedNode.build file b types n) n.preorder
  | ⟨kind, start, stop, type, children⟩ => by
    rw [RecordedNode.buildVia, RecordedNode.build, RecordedNode.preorder]
    refine (notes_spanVia file _).bind fun s => ?_
    cases children with
    | nil => exact notes_pure _
    | cons child rest =>
      exact (notes_buildAll file (b.openNode kind s) types (child :: rest)).bind_pure _

/-- To build some trees notes the bounds of their nodes. -/
theorem notes_buildAll (file : String) (b : TreeBuilder) (types : List (NodeId × String)) :
    ∀ ns : List RecordedNode, Notes (RecordedNode.buildAllVia notedSpan file b types ns)
      (RecordedNode.buildAll file b types ns) (RecordedNode.preorderAll ns)
  | [] => by
    rw [RecordedNode.buildAllVia, RecordedNode.buildAll, RecordedNode.preorderAll]
    exact notes_pure _
  | n :: ns => by
    rw [RecordedNode.buildAllVia, RecordedNode.buildAll, RecordedNode.preorderAll]
    exact (notes_build file b types n).bind fun built => notes_buildAll file built.1 built.2 ns

end

/-- To build a file notes the bounds of its nodes. -/
lemma notes_buildFile (file : String) (r : FileRecord) :
    Notes (r.buildVia notedSpan file) (r.build file) r.tree.preorder := by
  rw [FileRecord.buildVia, FileRecord.build]
  by_cases h : r.tree.kind = .sourceFile
  · rw [if_pos h, if_pos h, RecordedNode.preorder_eq]
    refine (notes_spanVia file r.tree).bind fun s => ?_
    exact (notes_buildAll file _ _ r.tree.children).bind_pure _
  · rw [if_neg h, if_neg h]
    exact notes_throw _ _

/-- A document is built as without notes, all spans are made of bounds that are in order, and if
there is a recording, they are made of the bounds of all nodes. -/
lemma SnapshotDocument.buildNoted_spec (d : SnapshotDocument) :
    d.buildNoted.1 = d.build ∧ (∀ b ∈ d.buildNoted.2, b.1 ≤ b.2) ∧
      ∀ r, d.build = .ok r →
        d.buildNoted.2 = d.files.flatMap fun q => q.2.tree.preorder.map RecordedNode.bounds := by
  have hfiles := notes_mapM (fun q : String × FileRecord =>
    (notes_buildFile q.1 q.2).bind_pure fun f => (q.1, f)) d.files
  have hdocument : Notes (d.buildVia notedSpan) d.build _ :=
    hfiles.bind_pure fun files => Recording.mk d.version files
  obtain ⟨noted, hrun, hforward, hnoted⟩ := hdocument []
  rw [buildNoted, hrun, List.nil_append]
  refine ⟨rfl, hforward, fun r hr => ?_⟩
  rw [hnoted r hr, List.map_flatMap]

end Notes

end InlineExpect
