import Mathlib
import InlineExpect.Proofs.Syntax.Preorder

/-!
# Trees stored in preorder

A built tree is a table in which each node stands in front of everything below it, and each subtree
takes up a block of the table.  `SyntaxTree.StoredInPreorder` says so in terms of parents, children
and walks, without the steps that built the tree, and `TreeBuilder.storedInPreorder_finish` shows it
for every run of a builder, whether it closes too many nodes or leaves some open.

The subtree of a node is what can be reached from it by children.  It is the interval of the node in
the numbering of `TreeBuilder.Numbered`, and everything else follows from that.
-/

namespace InlineExpect

namespace SyntaxTree

/-- The parent of a node. -/
def parent? (t : SyntaxTree) (id : NodeId) : Option NodeId := (t.get? id).bind (·.parent)

/-- A node and everything that is reached from it by going to children. -/
def subtree (t : SyntaxTree) (id : NodeId) : Set NodeId :=
  {d | Relation.ReflTransGen (fun p c => c ∈ t.children p) id d}

/-- A tree whose table lists its nodes in preorder. -/
structure StoredInPreorder (t : SyntaxTree) : Prop where
  root_lt : root < t.size
  /-- The root is the only node without a parent. -/
  parent?_eq_none_iff : ∀ i < t.size, t.parent? i = none ↔ i = root
  /-- Parents stand in front of their children. -/
  parent?_lt : ∀ i p, t.parent? i = some p → p < i
  /-- A node occurs once among the children of its parent, and nowhere else. -/
  count_children : ∀ i p, t.parent? i = some p →
    ∀ q, (t.children q).count i = if q = p then 1 else 0
  /-- Whatever occurs among the children of a node is a node, and has it as its parent. -/
  parent?_of_mem : ∀ p, ∀ c ∈ t.children p, t.parent? c = some p
  ascending : ∀ p, (t.children p).Pairwise (· < ·)
  /-- A walk ends when it has been through the subtree of its first node, which is a block of the
  table, and goes through the block from its beginning on if it has to end before. -/
  visit_singleton : ∀ i < t.size, ∀ fuel,
    t.visit fuel [i] = List.range' i (min fuel (t.subtree i).ncard)
  /-- The number of nodes is bound enough for a walk. -/
  preorderFrom_eq : ∀ i < t.size, t.preorderFrom i = List.range' i (t.subtree i).ncard
  preorder_eq : t.preorder = List.range t.size

end SyntaxTree

/-! ### Nested intervals -/

namespace Tiles

variable {stop : Nat → Nat} {a b : Nat} {ids : List Nat}

/-- The intervals of a tiling lie in it. -/
lemma stop_le (h : Tiles stop a ids b) {c : Nat} (hc : c ∈ ids) : stop c ≤ b := by
  induction ids generalizing a with
  | nil => simp at hc
  | cons d ds ih =>
    obtain ⟨-, -, hrest⟩ := h
    rcases List.mem_cons.mp hc with rfl | hc
    · exact hrest.le
    · exact ih hrest hc

/-- A tiling leaves nothing out. -/
lemma exists_mem (h : Tiles stop a ids b) {d : Nat} (ha : a ≤ d) (hb : d < b) :
    ∃ c ∈ ids, c ≤ d ∧ d < stop c := by
  induction ids generalizing a with
  | nil =>
    have hab : a = b := h
    omega
  | cons c cs ih =>
    obtain ⟨rfl, -, hrest⟩ := h
    rcases Nat.lt_or_ge d (stop c) with hlt | hge
    · exact ⟨c, List.mem_cons_self, ha, hlt⟩
    · obtain ⟨x, hx, hxd⟩ := ih hrest hge
      exact ⟨x, List.mem_cons_of_mem c hx, hxd⟩

/-- The nodes of a tiling ascend. -/
lemma pairwise_lt (h : Tiles stop a ids b) : ids.Pairwise (· < ·) := by
  induction ids generalizing a with
  | nil => exact .nil
  | cons c cs ih =>
    obtain ⟨rfl, hlt, hrest⟩ := h
    refine List.pairwise_cons.mpr ⟨fun d hd => ?_, ih hrest⟩
    exact hlt.trans_le (hrest.mem_bounds hd).1

end Tiles

namespace TreeBuilder

variable {b : TreeBuilder} {stop : Nat → Nat} {i d p : Nat}

namespace Numbered

/-- The interval of a node begins with the node. -/
lemma lt_stop (h : b.Numbered stop) (hi : i < b.nodes.size) : i < stop i := (h.tiles i hi).le

/-- A child is a node. -/
lemma child_lt_size (h : b.Numbered stop) (hd : d ∈ b.finish.children i) : d < b.nodes.size := by
  have hi : i < b.nodes.size := lt_of_mem_children hd
  exact ((h.tiles i hi).mem_bounds hd).2.trans_le (h.bounded i hi)

/-- What is reached from a node lies in its interval. -/
lemma mem_Ico_of_mem_subtree (h : b.Numbered stop) (hi : i < b.nodes.size)
    (hd : d ∈ b.finish.subtree i) : d ∈ Set.Ico i (stop i) := by
  have hreach : Relation.ReflTransGen (fun p c => c ∈ b.finish.children p) i d := hd
  induction hreach using Relation.ReflTransGen.head_induction_on with
  | refl => exact ⟨le_rfl, h.lt_stop hi⟩
  | @head p c hc hrest ih =>
    -- The interval of a child lies in that of its parent.
    obtain ⟨hle, hlt⟩ := ih (h.child_lt_size hc) hrest
    have hpc : p + 1 ≤ c := ((h.tiles p hi).mem_bounds hc).1
    exact ⟨by omega, hlt.trans_le ((h.tiles p hi).stop_le hc)⟩

/-- Everything in the interval of a node is reached from it. -/
lemma mem_subtree_of_mem_Ico (h : b.Numbered stop) {n : Nat} :
    ∀ {i}, i < b.nodes.size → d ∈ Set.Ico i (stop i) → d - i ≤ n → d ∈ b.finish.subtree i := by
  induction n with
  | zero =>
    intro i hi hd hn
    obtain rfl : d = i := le_antisymm (Nat.sub_eq_zero_iff_le.mp (Nat.le_zero.mp hn)) hd.1
    exact .refl
  | succ n ih =>
    intro i hi hd hn
    rcases hd.1.eq_or_lt with rfl | hlt
    · exact .refl
    · -- The node lies in the interval of a child, to which it is nearer.
      obtain ⟨c, hc, hcd, hstop⟩ := (h.tiles i hi).exists_mem hlt hd.2
      have hic : i + 1 ≤ c := ((h.tiles i hi).mem_bounds hc).1
      exact .head hc (ih (h.child_lt_size hc) ⟨hcd, hstop⟩ (by omega))

/-- The subtree of a node is its interval. -/
lemma subtree_eq_Ico (h : b.Numbered stop) (hi : i < b.nodes.size) :
    b.finish.subtree i = Set.Ico i (stop i) :=
  Set.Subset.antisymm (fun _ hd => h.mem_Ico_of_mem_subtree hi hd)
    fun _ hd => h.mem_subtree_of_mem_Ico hi hd le_rfl

/-- The subtree of a node has as many nodes as its interval. -/
lemma ncard_subtree (h : b.Numbered stop) (hi : i < b.nodes.size) :
    (b.finish.subtree i).ncard = stop i - i := by
  rw [h.subtree_eq_Ico hi, ← Finset.coe_Ico, Set.ncard_coe_finset, Nat.card_Ico]

/-- A walk from a node visits the numbers of its interval. -/
lemma visit_singleton (h : b.Numbered stop) (hi : i < b.nodes.size) (fuel : Nat) :
    b.finish.visit fuel [i] = List.range' i (min fuel (b.finish.subtree i).ncard) := by
  have htile : Tiles stop i [i] (stop i) := ⟨rfl, h.lt_stop hi, rfl⟩
  rw [h.ncard_subtree hi]
  exact SyntaxTree.visit_eq_range' (t := b.finish) h.tiles fuel htile (h.bounded i hi)

/-- The root is on the path of open nodes, and its interval is the whole tree. -/
lemma root_spec (h : b.Numbered stop) :
    SyntaxTree.root < b.nodes.size ∧ stop SyntaxTree.root = b.nodes.size :=
  h.unfinished _ (List.mem_append_right _ (List.mem_singleton_self _))

/-- A node other than the root is the child of some node. -/
lemma exists_parent (h : b.Numbered stop) (hi : i < b.nodes.size) (hne : i ≠ SyntaxTree.root) :
    ∃ p, i ∈ b.finish.children p := by
  obtain ⟨hroot, hstop⟩ := h.root_spec
  have hreach : i ∈ b.finish.subtree SyntaxTree.root :=
    h.mem_subtree_of_mem_Ico hroot ⟨Nat.zero_le i, hstop ▸ hi⟩ le_rfl
  rcases Relation.ReflTransGen.cases_tail hreach with heq | ⟨p, -, hp⟩
  · exact absurd heq hne
  · exact ⟨p, hp⟩

end Numbered

/-! ### The root has no parent -/

/-- The root is there, and has no parent. -/
def Rooted (b : TreeBuilder) : Prop :=
  SyntaxTree.root < b.nodes.size ∧ b.finish.parent? SyntaxTree.root = none

lemma rooted_start (file : String) (span : Span) : (start file span).Rooted :=
  ⟨Nat.zero_lt_one, rfl⟩

/-- The root has no parent after a leaf has been added. -/
lemma Rooted.leaf (h : b.Rooted) (kind : SyntaxKind) (span : Span) : (b.leaf kind span).Rooted := by
  obtain ⟨hlt, hnone⟩ := h
  refine ⟨by rw [size_leaf]; exact Nat.lt_succ_of_lt hlt, ?_⟩
  rw [SyntaxTree.parent?, parent_leaf, if_neg hlt.ne]
  exact hnone

/-- The root has no parent after any step. -/
lemma Rooted.apply (h : b.Rooted) (step : Step) : (b.apply step).Rooted := by
  cases step with
  | openNode kind span => exact h.leaf kind span
  | leaf kind span => exact h.leaf kind span
  | closeNode => exact h

/-- The root has no parent after any run. -/
lemma Rooted.applyAll (h : b.Rooted) (steps : List Step) : (b.applyAll steps).Rooted := by
  induction steps generalizing b with
  | nil => exact h
  | cons step steps ih => exact ih (h.apply step)

/-! ### Parents and children -/

/-- A node with a parent is one of its children. -/
lemma Numbered.mem_children_of_parent? (h : b.Numbered stop) (hroot : b.Rooted)
    (hp : b.finish.parent? i = some p) : i ∈ b.finish.children p := by
  have hi : i < b.nodes.size := by
    by_contra hge
    have hnone : b.finish.get? i = none := Array.getElem?_eq_none (not_lt.mp hge)
    rw [SyntaxTree.parent?, hnone] at hp
    cases hp
  have hne : i ≠ SyntaxTree.root := by
    rintro rfl
    rw [hroot.2] at hp
    cases hp
  obtain ⟨q, hq⟩ := h.exists_parent hi hne
  have hpq : some q = some p := (h.parent q i hq).symm.trans hp
  exact Option.some.inj hpq ▸ hq

/-- The children of a node ascend. -/
lemma Numbered.children_ascending (h : b.Numbered stop) (p : NodeId) :
    (b.finish.children p).Pairwise (· < ·) := by
  rcases Nat.lt_or_ge p b.nodes.size with hp | hp
  · exact (h.tiles p hp).pairwise_lt
  · rw [children_eq_nil hp]
    exact .nil

/-- A node occurs once among the children of its parent, and nowhere else. -/
lemma Numbered.count_children (h : b.Numbered stop) (hroot : b.Rooted)
    (hp : b.finish.parent? i = some p) (q : NodeId) :
    (b.finish.children q).count i = if q = p then 1 else 0 := by
  split
  · rename_i hqp
    have hnodup : (b.finish.children q).Nodup := (h.children_ascending q).imp Nat.ne_of_lt
    exact List.count_eq_one_of_mem hnodup (hqp ▸ h.mem_children_of_parent? hroot hp)
  · rename_i hqp
    refine List.count_eq_zero.mpr fun hmem => hqp ?_
    exact Option.some.inj ((h.parent q i hmem).symm.trans hp)

/-- Every run of a builder leads to a tree that is stored in preorder. -/
theorem storedInPreorder_finish (file : String) (span : Span) (steps : List Step) :
    ((start file span).applyAll steps).finish.StoredInPreorder := by
  have hroot := (rooted_start file span).applyAll steps
  obtain ⟨stop, h⟩ := (numbered_start file span).applyAll steps
  set b := (start file span).applyAll steps
  have hlt : ∀ i p, b.finish.parent? i = some p → p < i := by
    intro i p hp
    have hmem := h.mem_children_of_parent? hroot hp
    exact ((h.tiles p (lt_of_mem_children hmem)).mem_bounds hmem).1
  have hfrom : ∀ i < b.finish.size, b.finish.preorderFrom i =
      List.range' i (b.finish.subtree i).ncard := by
    intro i hi
    have hle : (b.finish.subtree i).ncard ≤ b.finish.size := by
      rw [h.ncard_subtree hi]
      exact (Nat.sub_le _ _).trans (h.bounded i hi)
    rw [SyntaxTree.preorderFrom, h.visit_singleton hi, min_eq_right hle]
  refine
    { root_lt := hroot.1
      parent?_eq_none_iff := fun i hi => ⟨fun hnone => ?_, fun heq => heq ▸ hroot.2⟩
      parent?_lt := hlt
      count_children := fun i p hp => h.count_children hroot hp
      parent?_of_mem := h.parent
      ascending := h.children_ascending
      visit_singleton := fun i hi => h.visit_singleton hi
      preorderFrom_eq := hfrom
      preorder_eq := SyntaxTree.preorder_eq_range ⟨file, span, steps, rfl⟩ }
  · by_contra hne
    obtain ⟨p, hp⟩ := h.exists_parent hi hne
    have hsome : b.finish.parent? i = some p := h.parent p i hp
    rw [hnone] at hsome
    cases hsome

/-- A step that closes nothing and a node that stays open do no harm. -/
example : ((start "a.ts" {}).applyAll
    [.closeNode, .openNode .callExpression {}, .leaf .identifier {}]).finish.preorderFrom 1 =
      [1, 2] := by
  decide

end TreeBuilder

end InlineExpect
