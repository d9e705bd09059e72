import Mathlib
import InlineExpect.Proofs.Snapshot.Address
import InlineExpect.Snapshot.Recording

/-!
# The table of a recorded tree

Building a recorded tree appends one row for each of its nodes to the table of a builder, in the
order of their addresses, and makes the root of the recorded tree a child of the innermost open
node.  The rows are known in advance: `RecordedNode.table` writes them down from the sizes of the
subtrees, without a builder.
-/

namespace InlineExpect

/-- A node of a table, and the type that was recorded for it. -/
structure TableRow where
  node : SyntaxNode
  type : Option String
deriving DecidableEq, Repr

namespace RecordedNode

/-- The numbers of some siblings, the first of which has the number `id`. -/
def siblingIds (id : NodeId) : List RecordedNode → List NodeId
  | [] => []
  | n :: ns => id :: siblingIds (id + n.size) ns

mutual

/-- The rows of a tree, the root of which has the number `id`. -/
def table (parent : Option NodeId) (id : NodeId) : RecordedNode → List TableRow
  | ⟨kind, start, stop, type, children⟩ =>
    ⟨⟨kind, .ofBounds start stop, parent, siblingIds (id + 1) children⟩, type⟩ ::
      tableAll id (id + 1) children

/-- The rows of the trees below some siblings, the first of which has the number `id`. -/
def tableAll (parent id : NodeId) : List RecordedNode → List TableRow
  | [] => []
  | n :: ns => n.table (some parent) id ++ tableAll parent (id + n.size) ns

end

/-- No node of a tree ends before it starts. -/
def RunsForward (n : RecordedNode) : Prop := ∀ p m, n.at? p = some m → m.start ≤ m.stop

/-- Whether a tree runs forward can be told from its addresses. -/
lemma runsForward_iff {n : RecordedNode} :
    n.RunsForward ↔ ∀ p ∈ n.addresses, ∀ m ∈ n.at? p, m.start ≤ m.stop :=
  ⟨fun h p _ m hm => h p m hm, fun h p m hm => h p (mem_addresses_of_at? hm) m hm⟩

instance (n : RecordedNode) : Decidable n.RunsForward := decidable_of_iff' _ runsForward_iff

variable {n m c : RecordedNode} {ns : List RecordedNode} {k : Nat} {p : List Nat} {id : NodeId}

/-- A child of a tree that runs forward runs forward. -/
lemma RunsForward.child (h : n.RunsForward) (hc : c ∈ n.children) : c.RunsForward := by
  intro p m hm
  obtain ⟨k, hk⟩ := List.getElem?_of_mem hc
  exact h (k :: p) m (by rw [at?, hk]; exact hm)

/-! ### Rows by address -/

mutual

theorem length_table (parent : Option NodeId) (id : NodeId) :
    ∀ n : RecordedNode, (n.table parent id).length = n.size
  | ⟨_, _, _, _, children⟩ => by
    rw [table, List.length_cons, length_tableAll id (id + 1) children, size_eq]

theorem length_tableAll (parent id : NodeId) :
    ∀ ns : List RecordedNode, (tableAll parent id ns).length = sizeAll ns
  | [] => rfl
  | n :: ns => by
    rw [tableAll, List.length_append, length_table (some parent) id n,
      length_tableAll parent (id + n.size) ns]
    rfl

end

/-- Each sibling is numbered behind everything below those in front of it. -/
lemma siblingIds_eq (id : NodeId) (ns : List RecordedNode) :
    siblingIds id ns = (List.range ns.length).map fun k => id + sizeAll (ns.take k) := by
  induction ns generalizing id with
  | nil => rfl
  | cons n ns ih =>
    rw [siblingIds, ih, List.length_cons, List.range_succ_eq_map, List.map_cons, List.map_map]
    refine congrArg _ (List.map_congr_left fun k _ => ?_)
    exact Nat.add_assoc _ _ _

/-- The rows of a sibling stand behind those of the siblings in front of it. -/
lemma getElem?_tableAll {parent : NodeId} {i : Nat} (hc : ns[k]? = some c) (hi : i < c.size) :
    (tableAll parent id ns)[sizeAll (ns.take k) + i]? =
      (c.table (some parent) (id + sizeAll (ns.take k)))[i]? := by
  induction ns generalizing k id with
  | nil => cases hc
  | cons n ns ih =>
    rw [tableAll]
    cases k with
    | zero =>
      obtain rfl : n = c := Option.some.inj hc
      rw [List.take_zero, show sizeAll [] = 0 from rfl, Nat.zero_add, Nat.add_zero,
        List.getElem?_append_left (by rwa [length_table])]
    | succ k =>
      have hsize : sizeAll ((n :: ns).take (k + 1)) = n.size + sizeAll (ns.take k) := rfl
      have hlen : (n.table (some parent) id).length = n.size := length_table _ _ _
      rw [hsize, Nat.add_assoc, ← hlen, List.getElem?_append_right (Nat.le_add_right _ _),
        Nat.add_sub_cancel_left, hlen, ih hc, Nat.add_assoc]

/-- The rows of a tree other than the first one are those below its root. -/
lemma getElem?_table_succ (parent : Option NodeId) (id : NodeId) (n : RecordedNode) (i : Nat) :
    (n.table parent id)[i + 1]? = (tableAll id (id + 1) n.children)[i]? := by
  cases n
  rw [table, List.getElem?_cons_succ]

/-- The number of a node below a child, counted from the number of the child. -/
lemma add_number_cons {id : Nat} (hc : n.children[k]? = some c) (hp : p ∈ c.addresses) :
    id + n.number (k :: p) = id + 1 + sizeAll (n.children.take k) + c.number p := by
  rw [number_cons hc hp]
  omega

/-- The row of a node has the parent and the children that its address tells. -/
lemma getElem?_table {parent : Option NodeId} (h : n.at? p = some m) :
    (n.table parent id)[n.number p]? = some
      { node :=
          { kind := m.kind
            span := .ofBounds m.start m.stop
            parent := if p = [] then parent else some (id + n.number p.dropLast)
            children := (List.range m.children.length).map fun k => id + n.number (p ++ [k]) }
        type := m.type } := by
  induction p generalizing n parent id with
  | nil =>
    obtain rfl : n = m := Option.some.inj h
    have hids : siblingIds (id + 1) n.children =
        (List.range n.children.length).map fun k => id + n.number [k] := by
      rw [siblingIds_eq]
      refine List.map_congr_left fun k hk => ?_
      have hc := List.getElem?_eq_getElem (List.mem_range.mp hk)
      rw [add_number_cons hc (by simp [addresses_eq]), number_nil]
      rfl
    rw [number_nil, if_pos rfl]
    cases n
    rw [table, List.getElem?_cons_zero, hids]
    rfl
  | cons k p ih =>
    rw [at?] at h
    obtain ⟨c, hc, hm⟩ := Option.bind_eq_some_iff.mp h
    have hp : p ∈ c.addresses := mem_addresses_of_at? hm
    have hi : c.number p < c.size := List.idxOf_lt_length_of_mem hp
    have hparent : (if p = [] then some id else
          some (id + 1 + sizeAll (n.children.take k) + c.number p.dropLast)) =
        some (id + n.number (k :: p).dropLast) := by
      rcases eq_or_ne p [] with rfl | hne
      · rw [if_pos rfl, List.dropLast_singleton, number_nil, Nat.add_zero]
      · rw [if_neg hne, List.dropLast_cons_of_ne_nil hne,
          add_number_cons hc (dropLast_mem_addresses hp)]
    have hchildren : ∀ j < m.children.length,
        id + 1 + sizeAll (n.children.take k) + c.number (p ++ [j]) =
          id + n.number (k :: p ++ [j]) := by
      intro j hj
      refine (add_number_cons hc (mem_addresses_iff.mpr ?_)).symm
      rw [at?_concat hm, List.getElem?_eq_getElem hj]
      rfl
    rw [number_cons hc hp, getElem?_table_succ, getElem?_tableAll hc hi, ih hm, hparent,
      if_neg (List.cons_ne_nil k p)]
    refine congrArg (fun ids => some (TableRow.mk (SyntaxNode.mk _ _ _ ids) _)) ?_
    exact List.map_congr_left fun j hj => hchildren j (List.mem_range.mp hj)

end RecordedNode

end InlineExpect
