import Mathlib
import InlineExpect.Proofs.Snapshot.Table
import InlineExpect.Proofs.Syntax.Preorder

/-!
# Building the table of a recorded tree

To build a recorded tree appends its rows to the table of a builder, and makes the root of the tree
a child of the innermost open node (`RecordedNode.exists_build`).  `TreeBuilder.Grows` is what
carries the proof through the recursion: it is said of one tree and of several siblings alike, and
it composes.

The type of a node is added when everything below the node has been built.  It goes to the right
row all the same, because the number of the node is kept until then, and nothing below the node has
this number.
-/

namespace InlineExpect

section Lists

variable {α : Type}

/-- To change an element in front of others leaves the others as they are. -/
lemma modify_append_of_lt {l l' : List α} {i : Nat} (f : α → α) (h : i < l.length) :
    (l ++ l').modify i f = l.modify i f ++ l' := by
  induction l generalizing i with
  | nil => cases h
  | cons a l ih =>
    cases i with
    | zero => rfl
    | succ i =>
      rw [List.cons_append, List.modify_succ_cons, List.modify_succ_cons,
        ih (Nat.lt_of_succ_lt_succ h), List.cons_append]

/-- To change the first element behind others leaves the others as they are. -/
lemma modify_length_append (l l' : List α) (f : α → α) :
    (l ++ l').modify l.length f = l ++ l'.modify 0 f := by
  induction l with
  | nil => rfl
  | cons a l ih =>
    rw [List.cons_append, List.length_cons, List.modify_succ_cons, ih, List.cons_append]

end Lists

/-- A node with more children. -/
def SyntaxNode.adopt (ids : List NodeId) (n : SyntaxNode) : SyntaxNode :=
  { n with children := n.children ++ ids }

lemma SyntaxNode.adopt_nil : SyntaxNode.adopt [] = id := by
  funext n
  rw [adopt, List.append_nil, id]

lemma SyntaxNode.adopt_comp_adopt (ids ids' : List NodeId) :
    SyntaxNode.adopt ids' ∘ SyntaxNode.adopt ids = SyntaxNode.adopt (ids ++ ids') := by
  funext n
  simp only [adopt, Function.comp_apply, List.append_assoc]

namespace TreeBuilder

/-- No type has been recorded for a node that is still to come. -/
def Fresh (b : TreeBuilder) (types : List (NodeId × String)) : Prop :=
  ∀ j, types.lookup (b.nodes.size + j) = none

/-- A builder appends rows to its table, and makes some nodes children of the innermost open one. -/
structure Grows (b b' : TreeBuilder) (types types' : List (NodeId × String)) (ids : List NodeId)
    (rows : List TableRow) : Prop where
  file : b'.file = b.file
  openNodes : b'.openNodes = b.openNodes
  nodes : b'.nodes.toList =
    b.nodes.toList.modify b.current (SyntaxNode.adopt ids) ++ rows.map (·.node)
  types_of_lt : ∀ i < b.nodes.size, types'.lookup i = types.lookup i
  types_of_ge : ∀ j, types'.lookup (b.nodes.size + j) = rows[j]?.bind (·.type)

namespace Grows

variable {b b₁ b₂ : TreeBuilder} {types types₁ types₂ : List (NodeId × String)}
  {ids ids' : List NodeId} {rows rows' : List TableRow}

lemma size (h : b.Grows b₁ types types₁ ids rows) : b₁.nodes.size = b.nodes.size + rows.length := by
  rw [← Array.length_toList, h.nodes, List.length_append, List.length_modify, List.length_map,
    Array.length_toList]

lemma current (h : b.Grows b₁ types types₁ ids rows) : b₁.current = b.current := by
  rw [TreeBuilder.current, h.openNodes, TreeBuilder.current]

lemma fresh (h : b.Grows b₁ types types₁ ids rows) : b₁.Fresh types₁ := by
  intro j
  rw [h.size, Nat.add_assoc, h.types_of_ge, List.getElem?_eq_none (Nat.le_add_right _ _)]
  rfl

/-- Without a step nothing is appended. -/
lemma refl (h : b.Fresh types) : b.Grows b types types [] [] where
  file := rfl
  openNodes := rfl
  nodes := by rw [SyntaxNode.adopt_nil, List.modify_id, List.map_nil, List.append_nil]
  types_of_lt _ _ := rfl
  types_of_ge j := h j

/-- What two parts of a run append stands one behind the other. -/
lemma trans (hb : b.current < b.nodes.size) (h₁ : b.Grows b₁ types types₁ ids rows)
    (h₂ : b₁.Grows b₂ types₁ types₂ ids' rows') :
    b.Grows b₂ types types₂ (ids ++ ids') (rows ++ rows') where
  file := h₂.file.trans h₁.file
  openNodes := h₂.openNodes.trans h₁.openNodes
  nodes := by
    have hlt : b.current < (b.nodes.toList.modify b.current (SyntaxNode.adopt ids)).length := by
      rwa [List.length_modify, Array.length_toList]
    rw [h₂.nodes, h₁.current, h₁.nodes, modify_append_of_lt _ hlt, List.modify_modify_eq,
      SyntaxNode.adopt_comp_adopt, List.map_append, List.append_assoc]
  types_of_lt i hi := by
    rw [h₂.types_of_lt i (by rw [h₁.size]; omega), h₁.types_of_lt i hi]
  types_of_ge j := by
    rcases Nat.lt_or_ge j rows.length with hj | hj
    · rw [h₂.types_of_lt _ (by rw [h₁.size]; omega), h₁.types_of_ge,
        List.getElem?_append_left hj]
    · obtain ⟨k, rfl⟩ := Nat.exists_eq_add_of_le hj
      rw [← Nat.add_assoc, ← h₁.size, h₂.types_of_ge, List.getElem?_append_right hj,
        Nat.add_sub_cancel_left]

end Grows

end TreeBuilder

namespace RecordedNode

open TreeBuilder

variable {b : TreeBuilder} {types : List (NodeId × String)}

/-- A type that was recorded is found at its node, and at no other one. -/
lemma lookup_addType (id i : NodeId) (n : RecordedNode) (types : List (NodeId × String)) :
    (n.addType id types).lookup i =
      if i = id then n.type.or (types.lookup i) else types.lookup i := by
  unfold addType
  cases n.type with
  | none => simp
  | some text =>
    rw [List.lookup_cons]
    by_cases hi : i = id
    · simp [hi]
    · simp [hi, beq_eq_false_iff_ne.mpr hi]

/-- A node that runs forward has a span. -/
lemma span_eq_ok {n : RecordedNode} (h : n.RunsForward) (file : String) :
    n.span file = .ok (.ofBounds n.start n.stop) := by
  rw [span, if_neg (not_lt.mpr (h [] n rfl))]

/-- When everything below a node has been built, the rows of the node are there. -/
lemma grows_closeNode {inner : TreeBuilder} {types' : List (NodeId × String)} (n : RecordedNode)
    (hfresh : b.Fresh types)
    (h : (b.openNode n.kind (.ofBounds n.start n.stop)).Grows inner types types'
      (siblingIds (b.nodes.size + 1) n.children)
      (tableAll b.nodes.size (b.nodes.size + 1) n.children)) :
    b.Grows inner.closeNode types (n.addType b.nodes.size types') [b.nodes.size]
      (n.table (some b.current) b.nodes.size) := by
  obtain ⟨kind, start, stop, type, children⟩ := n
  set opened := b.openNode kind (.ofBounds start stop)
  have hsize : opened.nodes.size = b.nodes.size + 1 := size_leaf b kind _
  have hnodes : opened.nodes.toList = b.nodes.toList.modify b.current (.adopt [b.nodes.size]) ++
      [⟨kind, .ofBounds start stop, some b.current, []⟩] := by
    rw [← Array.toList_modify]
    exact Array.toList_push
  have hcurrent : opened.current =
      (b.nodes.toList.modify b.current (.adopt [b.nodes.size])).length := by
    rw [List.length_modify, Array.length_toList]
    rfl
  refine ⟨h.file, ?_, ?_, fun i hi => ?_, fun j => ?_⟩
  · exact congrArg List.tail h.openNodes
  · change inner.nodes.toList = _
    rw [h.nodes, hnodes, hcurrent, modify_length_append, List.append_assoc, table]
    rfl
  · rw [lookup_addType, if_neg hi.ne, h.types_of_lt i (by omega)]
  · rw [table]
    cases j with
    | zero =>
      have hnone : types'.lookup b.nodes.size = none := by
        rw [h.types_of_lt _ (by rw [hsize]; exact Nat.lt_succ_self _)]
        exact hfresh 0
      rw [Nat.add_zero, lookup_addType, if_pos rfl, hnone, Option.or_none]
      rfl
    | succ j =>
      have hne : b.nodes.size + (j + 1) ≠ b.nodes.size := by omega
      have hshift : b.nodes.size + (j + 1) = opened.nodes.size + j := by omega
      rw [lookup_addType, if_neg hne, hshift, h.types_of_ge]
      rfl

mutual

/-- A recorded tree that runs forward can be built, and its rows are appended. -/
theorem exists_build (file : String) (n : RecordedNode) (b : TreeBuilder)
    (types : List (NodeId × String)) (hn : n.RunsForward) (hfresh : b.Fresh types) :
    ∃ b' types', build file b types n = .ok (b', types') ∧
      b.Grows b' types types' [b.nodes.size] (n.table (some b.current) b.nodes.size) := by
  match n with
  | ⟨kind, start, stop, type, children⟩ =>
    set n : RecordedNode := ⟨kind, start, stop, type, children⟩ with hn_def
    set opened := b.openNode kind (.ofBounds start stop)
    have hsize : opened.nodes.size = b.nodes.size + 1 := size_leaf b kind _
    have hopened : opened.Fresh types := by
      intro j
      rw [hsize, Nat.add_assoc]
      exact hfresh _
    have hcurrent : opened.current < opened.nodes.size := hsize ▸ Nat.lt_succ_self _
    obtain ⟨inner, types', hbuild, hgrows⟩ := exists_buildAll file children opened types
      (fun c hc => hn.child hc) hcurrent hopened
    rw [hsize] at hgrows
    refine ⟨inner.closeNode, n.addType b.nodes.size types', ?_, grows_closeNode n hfresh hgrows⟩
    rw [hn_def, build, ← hn_def, span_eq_ok hn]
    cases children with
    | nil =>
      -- A leaf is what is left of a node that is opened and closed at once.
      rw [buildAll] at hbuild
      obtain ⟨rfl, rfl⟩ := Prod.mk.inj (Except.ok.inj hbuild)
      rfl
    | cons child rest =>
      change (buildAll file opened types (child :: rest) >>= _) = _
      rw [hbuild]
      rfl

/-- Recorded trees that run forward can be built one after the other, and their rows are
appended. -/
theorem exists_buildAll (file : String) (ns : List RecordedNode) (b : TreeBuilder)
    (types : List (NodeId × String)) (hns : ∀ n ∈ ns, n.RunsForward)
    (hb : b.current < b.nodes.size) (hfresh : b.Fresh types) :
    ∃ b' types', buildAll file b types ns = .ok (b', types') ∧
      b.Grows b' types types' (siblingIds b.nodes.size ns)
        (tableAll b.current b.nodes.size ns) := by
  match ns with
  | [] => exact ⟨b, types, by rw [buildAll], .refl hfresh⟩
  | n :: ns =>
    obtain ⟨b₁, types₁, hbuild, h₁⟩ :=
      exists_build file n b types (hns n List.mem_cons_self) hfresh
    have hsize : b₁.nodes.size = b.nodes.size + n.size := by rw [h₁.size, length_table]
    have hb₁ : b₁.current < b₁.nodes.size := by
      rw [h₁.current, hsize]
      exact Nat.lt_add_right _ hb
    obtain ⟨b₂, types₂, hrest, h₂⟩ := exists_buildAll file ns b₁ types₁
      (fun m hm => hns m (List.mem_cons_of_mem n hm)) hb₁ h₁.fresh
    rw [hsize, h₁.current] at h₂
    refine ⟨b₂, types₂, ?_, h₁.trans hb h₂⟩
    rw [buildAll, hbuild]
    exact hrest

end

end RecordedNode

end InlineExpect
