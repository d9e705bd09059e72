import Mathlib
import InlineExpect.Proofs.Syntax.Width
import InlineExpect.Proofs.Traversal
import InlineExpect.Snapshot.Recording

/-!
# Recorded trees are built

The steps that build a recorded tree are known in advance (`RecordedNode.steps`): a node is opened,
what is below it is built, and the node is closed.  To add a leaf is to open a node and to close it
at once.  So a recording answers with built trees only (`SnapshotDocument.built_tree`), as an engine
has to, and what is known of built trees holds for them.  In particular they are the same with
numbers of 32 bits unless they are too large for that (`SnapshotDocument.exists_tree_eq_inWords`).
-/

namespace InlineExpect

open TreeBuilder

namespace RecordedNode

mutual

/-- The steps that build a recorded tree. -/
def steps : RecordedNode → List Step
  | ⟨kind, start, stop, _, children⟩ =>
    .openNode kind (.ofBounds start stop) :: (stepsAll children ++ [.closeNode])

/-- The steps that build some recorded trees, one after the other. -/
def stepsAll : List RecordedNode → List Step
  | [] => []
  | n :: ns => n.steps ++ stepsAll ns

end

variable {file : String}

/-- The span of a node goes from its start to its end. -/
lemma eq_of_span_eq_ok {n : RecordedNode} {span : Span} (h : n.span file = .ok span) :
    span = .ofBounds n.start n.stop := by
  rw [RecordedNode.span] at h
  split at h
  · cases h
  · exact (Except.ok.inj h).symm

/-- The steps of a node build what is below it while it is open. -/
lemma applyAll_steps (b : TreeBuilder) (kind : SyntaxKind) (start stop : Nat)
    (type : Option String) (children : List RecordedNode) :
    b.applyAll (steps ⟨kind, start, stop, type, children⟩) =
      ((b.openNode kind (.ofBounds start stop)).applyAll (stepsAll children)).closeNode := by
  rw [steps, applyAll, List.foldl_cons, List.foldl_append]
  rfl

mutual

/-- A recorded tree is built by its steps. -/
theorem eq_applyAll_of_build (n : RecordedNode) {b b' : TreeBuilder}
    {types types' : List (NodeId × String)} (h : build file b types n = .ok (b', types')) :
    b' = b.applyAll n.steps := by
  match n with
  | ⟨kind, start, stop, type, children⟩ =>
    rw [build] at h
    obtain ⟨s, hspan, hrest⟩ := bind_eq_ok_iff.mp h
    obtain rfl := eq_of_span_eq_ok hspan
    rw [applyAll_steps]
    cases children with
    | nil =>
      rw [stepsAll]
      exact (Prod.mk.inj (Except.ok.inj hrest)).1.symm
    | cons child rest =>
      obtain ⟨⟨inner, innerTypes⟩, hinner, hclosed⟩ := bind_eq_ok_iff.mp hrest
      rw [← eq_applyAll_of_buildAll (child :: rest) hinner]
      exact (Prod.mk.inj (Except.ok.inj hclosed)).1.symm

/-- Recorded trees are built by their steps, one after the other. -/
theorem eq_applyAll_of_buildAll (ns : List RecordedNode) {b b' : TreeBuilder}
    {types types' : List (NodeId × String)} (h : buildAll file b types ns = .ok (b', types')) :
    b' = b.applyAll (stepsAll ns) := by
  match ns with
  | [] =>
    rw [buildAll] at h
    rw [stepsAll]
    exact (Prod.mk.inj (Except.ok.inj h)).1.symm
  | n :: ns =>
    rw [buildAll] at h
    obtain ⟨⟨b₁, types₁⟩, hbuild, hrest⟩ := bind_eq_ok_iff.mp h
    obtain rfl := eq_applyAll_of_build n hbuild
    rw [eq_applyAll_of_buildAll ns hrest, stepsAll, applyAll, applyAll, applyAll,
      List.foldl_append]

end

end RecordedNode

/-- The tree of a record is built. -/
lemma FileRecord.built_tree {record : FileRecord} {name : String} {f : RecordedFile}
    (h : record.build name = .ok f) : f.tree.Built := by
  rw [build] at h
  split at h
  · obtain ⟨s, -, hrest⟩ := bind_eq_ok_iff.mp h
    obtain ⟨⟨b, types⟩, hbuild, hf⟩ := bind_eq_ok_iff.mp hrest
    rw [← Except.ok.inj hf, RecordedNode.eq_applyAll_of_buildAll _ hbuild]
    exact ⟨name, s, _, rfl⟩
  · cases h

namespace SnapshotDocument

variable {d : SnapshotDocument} {r : Recording} {file : String} {t : SyntaxTree}

/-- A recording answers with built trees. -/
theorem built_tree (h : d.build = .ok r) (ht : r.engine.tree file = .ok t) : t.Built := by
  obtain ⟨files, hfiles, hr⟩ := bind_eq_ok_iff.mp h
  obtain rfl := Except.ok.inj hr
  obtain ⟨f, hf, rfl⟩ : ∃ f, files.lookup file = some f ∧ f.tree = t := by
    change (Recording.file _ file).map _ = _ at ht
    rw [Recording.file] at ht
    cases hf : files.lookup file with
    | none =>
      rw [hf] at ht
      cases ht
    | some f =>
      rw [hf] at ht
      exact ⟨f, rfl, Except.ok.inj ht⟩
  obtain ⟨before, after, heq, -⟩ := List.lookup_eq_some_iff.mp hf
  have hmem : Except.ok (file, f) ∈ files.map (Except.ok (ε := EngineFault)) :=
    List.mem_map_of_mem (heq ▸ List.mem_append_cons_self)
  rw [← mapM_eq_ok_iff.mp hfiles] at hmem
  obtain ⟨q, -, hq⟩ := List.mem_map.mp hmem
  obtain ⟨f', hbuild, hpair⟩ := bind_eq_ok_iff.mp hq
  obtain ⟨-, rfl⟩ := Prod.mk.inj (Except.ok.inj hpair)
  exact FileRecord.built_tree hbuild

/-- A recording answers with trees that are the same with numbers of 32 bits, as long as they have
at most `2 ^ 32` nodes. -/
theorem exists_tree_eq_inWords (h : d.build = .ok r) (ht : r.engine.tree file = .ok t)
    (hsize : t.size ≤ 2 ^ 32) :
    ∃ name span steps, t = ((start name span).applyAllInWords steps).finish :=
  (built_tree h ht).inWords hsize

end SnapshotDocument

end InlineExpect
