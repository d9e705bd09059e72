import Mathlib
import InlineExpect.Syntax.Builder

/-!
# Built trees are numbered in preorder

The only way to a syntax tree is a builder.  This file shows that a builder numbers the nodes of
its tree in preorder, whatever the order of its steps: the walk `SyntaxTree.preorder` of a tree with
`n` nodes visits `0, 1, …, n - 1`.

A numbering of this kind gives each node `i` an interval `[i, stop i)` that holds the node and all
nodes below it, and the intervals of the children of `i` tile `[i + 1, stop i)`.  `Tiles` says so,
and `TreeBuilder.Numbered` is the invariant that carries it through the steps of a builder.  The
nodes that are still open are those whose intervals end where the tree ends.
-/

namespace InlineExpect

/-! ### Steps of a builder -/

namespace TreeBuilder

/-- A step in the building of a tree. -/
inductive Step where
  | openNode (kind : SyntaxKind) (span : Span)
  | leaf (kind : SyntaxKind) (span : Span)
  | closeNode
deriving DecidableEq, Repr

/-- The builder after a step. -/
def apply (b : TreeBuilder) : Step → TreeBuilder
  | .openNode kind span => b.openNode kind span
  | .leaf kind span => b.leaf kind span
  | .closeNode => b.closeNode

/-- The builder after some steps. -/
def applyAll (b : TreeBuilder) (steps : List Step) : TreeBuilder := steps.foldl apply b

end TreeBuilder

/-- A tree is built if some steps of a builder lead to it, balanced or not. -/
def SyntaxTree.Built (t : SyntaxTree) : Prop :=
  ∃ file span steps, t = ((TreeBuilder.start file span).applyAll steps).finish

/-! ### Tilings -/

/-- The intervals of some nodes follow each other without gaps from `a` to `b`. -/
def Tiles (stop : Nat → Nat) : Nat → List Nat → Nat → Prop
  | a, [], b => a = b
  | a, c :: cs, b => c = a ∧ a < stop c ∧ Tiles stop (stop c) cs b

namespace Tiles

variable {stop stop' : Nat → Nat} {a b e : Nat} {ids : List Nat}

/-- A tiling does not run backwards. -/
lemma le (h : Tiles stop a ids b) : a ≤ b := by
  induction ids generalizing a with
  | nil => exact h.le
  | cons c cs ih =>
    obtain ⟨-, hlt, hrest⟩ := h
    exact hlt.le.trans (ih hrest)

/-- The nodes of a tiling lie in it. -/
lemma mem_bounds (h : Tiles stop a ids b) {d : Nat} (hd : d ∈ ids) : a ≤ d ∧ d < b := by
  induction ids generalizing a with
  | nil => simp at hd
  | cons c cs ih =>
    obtain ⟨rfl, hlt, hrest⟩ := h
    rcases List.mem_cons.mp hd with rfl | hd
    · exact ⟨le_rfl, hlt.trans_le hrest.le⟩
    · obtain ⟨hle, hlt'⟩ := ih hrest hd
      exact ⟨hlt.le.trans hle, hlt'⟩

/-- Two tilings that meet make one. -/
lemma append {cs ds : List Nat} (h₁ : Tiles stop a cs b) (h₂ : Tiles stop b ds e) :
    Tiles stop a (cs ++ ds) e := by
  induction cs generalizing a with
  | nil => rwa [show a = b from h₁]
  | cons c cs ih =>
    obtain ⟨hc, hlt, hrest⟩ := h₁
    exact ⟨hc, hlt, ih hrest⟩

/-- A tiling of a list of nodes is cut where the list is cut. -/
lemma of_append {cs ds : List Nat} (h : Tiles stop a (cs ++ ds) e) :
    ∃ b, Tiles stop a cs b ∧ Tiles stop b ds e := by
  induction cs generalizing a with
  | nil => exact ⟨a, rfl, h⟩
  | cons c cs ih =>
    obtain ⟨hc, hlt, hrest⟩ := h
    obtain ⟨b, h₁, h₂⟩ := ih hrest
    exact ⟨b, ⟨hc, hlt, h₁⟩, h₂⟩

/-- A tiling depends only on where the intervals of its own nodes end. -/
lemma congr (h : Tiles stop a ids b) (hs : ∀ d ∈ ids, stop' d = stop d) : Tiles stop' a ids b := by
  induction ids generalizing a with
  | nil => exact h
  | cons c cs ih =>
    obtain ⟨hc, hlt, hrest⟩ := h
    have hcs : stop' c = stop c := hs c List.mem_cons_self
    refine ⟨hc, by rwa [hcs], ?_⟩
    rw [hcs]
    exact ih hrest fun d hd => hs d (List.mem_cons_of_mem c hd)

/-- The last interval of a tiling may be made longer. -/
lemma extend_last {cs : List Nat} {x : Nat} (h : Tiles stop a (cs ++ [x]) b)
    (hs : ∀ d ∈ cs, stop' d = stop d) (hx : b ≤ stop' x) :
    Tiles stop' a (cs ++ [x]) (stop' x) := by
  obtain ⟨m, h₁, hxm, hlt, hb⟩ := h.of_append
  have hb : stop x = b := hb
  exact (h₁.congr hs).append ⟨hxm, by omega, rfl⟩

end Tiles

/-- The walk visits the nodes of a tiling and everything below them in the order of their numbers,
and ends with the tiling or when it may visit no further node. -/
lemma SyntaxTree.visit_eq_range' {t : SyntaxTree} {stop : Nat → Nat}
    (ht : ∀ i < t.size, Tiles stop (i + 1) (t.children i) (stop i)) (fuel : Nat) :
    ∀ {a e : Nat} {ids : List Nat}, Tiles stop a ids e → e ≤ t.size →
      t.visit fuel ids = List.range' a (min fuel (e - a)) := by
  induction fuel with
  | zero =>
    intro a e ids h he
    rw [Nat.zero_min]
    rfl
  | succ fuel ih =>
    intro a e ids h he
    cases ids with
    | nil =>
      rw [show a = e from h, Nat.sub_self, Nat.min_zero]
      rfl
    | cons c cs =>
      obtain ⟨rfl, hlt, hrest⟩ := h
      have hce : c < e := hlt.trans_le hrest.le
      -- The children of the node take its place on the stack and tile what it leaves.
      have hnext : Tiles stop (c + 1) (t.children c ++ cs) e := (ht c (by omega)).append hrest
      have hlen : e - c = e - (c + 1) + 1 := by omega
      rw [SyntaxTree.visit, ih hnext he, hlen, Nat.add_min_add_right, List.range'_succ]

/-! ### The invariant of a builder -/

section Lists

variable {α : Type} {R : α → α → Prop}

/-- In a chain, every element but the first has one in front of it. -/
lemma exists_rel_left_of_isChain {a : α} {l : List α} (h : (a :: l).IsChain R) {x : α}
    (hx : x ∈ l) : ∃ y ∈ a :: l, R y x := by
  induction l generalizing a with
  | nil => simp at hx
  | cons b l ih =>
    obtain ⟨hab, hbl⟩ := List.isChain_cons_cons.mp h
    rcases List.mem_cons.mp hx with rfl | hx
    · exact ⟨a, List.mem_cons_self, hab⟩
    · obtain ⟨y, hy, hyx⟩ := ih hbl hx
      exact ⟨y, List.mem_cons_of_mem a hy, hyx⟩

/-- In a chain, every element but the last has one behind it. -/
lemma exists_rel_right_of_isChain {l : List α} {r : α} (h : (l ++ [r]).IsChain R) {x : α}
    (hx : x ∈ l) : ∃ y ∈ l ++ [r], R x y := by
  induction l with
  | nil => simp at hx
  | cons a l ih =>
    have htail : (l ++ [r]).IsChain R := h.tail
    rcases List.mem_cons.mp hx with rfl | hx
    · cases l with
      | nil => exact ⟨r, by simp, by simpa using h⟩
      | cons b l =>
        exact ⟨b, by simp, (List.isChain_cons_cons.mp h).1⟩
    · obtain ⟨y, hy, hxy⟩ := ih htail hx
      exact ⟨y, List.mem_cons_of_mem a hy, hxy⟩

end Lists

namespace TreeBuilder

/-- The open nodes with the root, innermost first. -/
def openPath (b : TreeBuilder) : List NodeId := b.openNodes ++ [SyntaxTree.root]

/-- The node that the next one will be a child of is the innermost open one. -/
lemma openPath_eq_cons (b : TreeBuilder) : ∃ outer, b.openPath = b.current :: outer := by
  unfold openPath current
  cases b.openNodes with
  | nil => exact ⟨[], rfl⟩
  | cons c cs => exact ⟨cs ++ [SyntaxTree.root], rfl⟩

/-- The innermost open node is open. -/
lemma current_mem_openPath (b : TreeBuilder) : b.current ∈ b.openPath := by
  obtain ⟨outer, h⟩ := b.openPath_eq_cons
  rw [h]
  exact List.mem_cons_self

/-- The nodes of a builder are numbered in preorder: the interval of each node ends where `stop`
says, and the intervals of the open nodes end where the tree ends. -/
structure Numbered (b : TreeBuilder) (stop : Nat → Nat) : Prop where
  /-- The children of a node follow it and each other without gaps. -/
  tiles : ∀ i < b.nodes.size, Tiles stop (i + 1) (b.finish.children i) (stop i)
  /-- No interval ends behind the tree. -/
  bounded : ∀ i < b.nodes.size, stop i ≤ b.nodes.size
  /-- A node is the parent of its children. -/
  parent : ∀ i, ∀ d ∈ b.finish.children i, (b.finish.get? d).bind (·.parent) = some i
  /-- The innermost open node has the greatest number. -/
  descending : b.openPath.Pairwise (· > ·)
  /-- The intervals of the open nodes are not finished. -/
  unfinished : ∀ o ∈ b.openPath, o < b.nodes.size ∧ stop o = b.nodes.size
  /-- Each open node but the innermost one has the next open one as its last child. -/
  spine : b.openPath.IsChain fun inner outer => (b.finish.children outer).getLast? = some inner

/-- A new node becomes the last child of the innermost open one. -/
lemma children_leaf (b : TreeBuilder) (kind : SyntaxKind) (span : Span) (i : NodeId)
    (hc : b.current < b.nodes.size) :
    (b.leaf kind span).finish.children i =
      if i = b.current then b.finish.children i ++ [b.nodes.size] else b.finish.children i := by
  unfold SyntaxTree.children SyntaxTree.get? finish leaf
  simp only [Array.getElem?_push, Array.size_modify, Array.getElem?_modify]
  by_cases hi : i = b.nodes.size
  · subst hi
    rw [if_neg hc.ne']
    simp
  · by_cases hic : i = b.current
    · subst hic
      simp [hi, hc, addChild, nextId]
    · simp [hi, Ne.symm hic, hic]

/-- The parent of a node is settled when it is added. -/
lemma parent_leaf (b : TreeBuilder) (kind : SyntaxKind) (span : Span) (d : NodeId) :
    ((b.leaf kind span).finish.get? d).bind (·.parent) =
      if d = b.nodes.size then some b.current else (b.finish.get? d).bind (·.parent) := by
  unfold SyntaxTree.get? finish leaf
  simp only [Array.getElem?_push, Array.size_modify, Array.getElem?_modify]
  by_cases hd : d = b.nodes.size
  · simp [hd]
  · by_cases hdc : b.current = d
    · simp [hd, hdc, addChild, Function.comp_def, Option.bind_map]
    · simp [hd, hdc]

lemma size_leaf (b : TreeBuilder) (kind : SyntaxKind) (span : Span) :
    (b.leaf kind span).nodes.size = b.nodes.size + 1 := by
  simp [leaf]

/-- A number that is not used yet has no children. -/
lemma children_eq_nil {b : TreeBuilder} {i : Nat} (hi : b.nodes.size ≤ i) :
    b.finish.children i = [] := by
  simp [SyntaxTree.children, SyntaxTree.get?, finish, Array.getElem?_eq_none hi]

lemma lt_of_mem_children {b : TreeBuilder} {i d : Nat} (hd : d ∈ b.finish.children i) :
    i < b.nodes.size := by
  by_contra hge
  rw [children_eq_nil (not_lt.mp hge)] at hd
  simp at hd

/-- A tree that consists of its root is numbered in preorder. -/
lemma numbered_start (file : String) (span : Span) : (start file span).Numbered fun _ => 1 where
  tiles i hi := by
    obtain rfl : i = 0 := by simpa [start] using hi
    rfl
  bounded i hi := by simp [start]
  parent i d hd := by
    have : (start file span).finish.children i = [] := by
      unfold SyntaxTree.children SyntaxTree.get? finish start
      rcases i with _ | i <;> simp
    rw [this] at hd
    simp at hd
  descending := by simp [openPath, start]
  unfinished o ho := by
    have : o = 0 := by simpa [openPath, start, SyntaxTree.root] using ho
    subst this
    exact ⟨by simp [start], rfl⟩
  spine := by simp [openPath, start]

namespace Numbered

variable {b : TreeBuilder} {stop : Nat → Nat}

/-- An open child is the last child of its parent, which is open as well. -/
lemma getLast?_children_of_mem_openPath (h : b.Numbered stop) {i d : Nat} (hi : i < b.nodes.size)
    (hd : d ∈ b.finish.children i) (hopen : d ∈ b.openPath) :
    i ∈ b.openPath ∧ (b.finish.children i).getLast? = some d := by
  have hpos : i + 1 ≤ d := ((h.tiles i hi).mem_bounds hd).1
  have hmem : d ∈ b.openNodes := by
    rcases List.mem_append.mp hopen with hm | hm
    · exact hm
    · have : d = 0 := List.mem_singleton.mp hm
      omega
  obtain ⟨o, ho, hlast⟩ := exists_rel_right_of_isChain h.spine hmem
  have hio : i = o := by
    have hpi := h.parent i d hd
    have hpo := h.parent o d (List.mem_of_getLast? hlast)
    rw [hpi] at hpo
    exact Option.some.inj hpo
  subst hio
  exact ⟨ho, hlast⟩

/-- The innermost open node has no open child. -/
lemma not_mem_openPath_of_mem_children_current (h : b.Numbered stop) {d : Nat}
    (hd : d ∈ b.finish.children b.current) : d ∉ b.openPath := by
  obtain ⟨outer, hpath⟩ := b.openPath_eq_cons
  have hcur : b.current < b.nodes.size := (h.unfinished _ b.current_mem_openPath).1
  have hlt : b.current < d := ((h.tiles _ hcur).mem_bounds hd).1
  intro hopen
  rw [hpath] at hopen
  have hdesc := h.descending
  rw [hpath, List.pairwise_cons] at hdesc
  rcases List.mem_cons.mp hopen with rfl | hmem
  · exact lt_irrefl _ hlt
  · exact absurd (hdesc.1 d hmem) (not_lt.mpr hlt.le)

/-- An open node other than the innermost one has an open node as its last child. -/
lemma exists_open_last (h : b.Numbered stop) {o : Nat} (ho : o ∈ b.openPath)
    (hne : o ≠ b.current) :
    ∃ x ∈ b.openPath, (b.finish.children o).getLast? = some x := by
  obtain ⟨outer, hpath⟩ := b.openPath_eq_cons
  have hspine := h.spine
  rw [hpath] at ho hspine ⊢
  exact exists_rel_left_of_isChain hspine ((List.mem_cons.mp ho).resolve_left hne)

end Numbered

/-- Where the intervals end once a node has been added: the new node and the open ones end where the
tree ends. -/
def stopAfter (b : TreeBuilder) (stop : Nat → Nat) (i : Nat) : Nat :=
  if i = b.nodes.size ∨ i ∈ b.openPath then b.nodes.size + 1 else stop i

lemma stopAfter_size (b : TreeBuilder) (stop : Nat → Nat) :
    b.stopAfter stop b.nodes.size = b.nodes.size + 1 := by
  simp [stopAfter]

lemma stopAfter_of_mem {b : TreeBuilder} {stop : Nat → Nat} {i : Nat} (h : i ∈ b.openPath) :
    b.stopAfter stop i = b.nodes.size + 1 := by
  simp [stopAfter, h]

lemma stopAfter_of_not_mem {b : TreeBuilder} {stop : Nat → Nat} {i : Nat}
    (hi : i < b.nodes.size) (h : i ∉ b.openPath) : b.stopAfter stop i = stop i := by
  simp [stopAfter, h, hi.ne]

namespace Numbered

variable {b : TreeBuilder} {stop : Nat → Nat}

/-- The interval of a closed child stays as it is when a node is added. -/
lemma stopAfter_child (h : b.Numbered stop) {i d : Nat} (hi : i < b.nodes.size)
    (hd : d ∈ b.finish.children i) (hopen : d ∉ b.openPath) : b.stopAfter stop d = stop d :=
  stopAfter_of_not_mem (((h.tiles i hi).mem_bounds hd).2.trans_le (h.bounded i hi)) hopen

/-- The interval of the innermost open node takes in the new node. -/
lemma tiles_current (h : b.Numbered stop) :
    Tiles (b.stopAfter stop) (b.current + 1) (b.finish.children b.current ++ [b.nodes.size])
      (b.nodes.size + 1) := by
  obtain ⟨hcur, hstop⟩ := h.unfinished _ b.current_mem_openPath
  have hold : Tiles stop (b.current + 1) (b.finish.children b.current) b.nodes.size := by
    have := h.tiles _ hcur
    rwa [hstop] at this
  have hsame : ∀ d ∈ b.finish.children b.current, b.stopAfter stop d = stop d := fun d hd =>
    h.stopAfter_child hcur hd (h.not_mem_openPath_of_mem_children_current hd)
  refine (hold.congr hsame).append ⟨rfl, ?_, ?_⟩
  · rw [stopAfter_size]
    exact Nat.lt_succ_self _
  · exact stopAfter_size b stop

/-- The interval of any other open node grows with that of its last child. -/
lemma tiles_open (h : b.Numbered stop) {i : Nat} (hopen : i ∈ b.openPath) (hne : i ≠ b.current) :
    Tiles (b.stopAfter stop) (i + 1) (b.finish.children i) (b.nodes.size + 1) := by
  obtain ⟨hi, hstop⟩ := h.unfinished i hopen
  obtain ⟨x, hx, hlast⟩ := h.exists_open_last hopen hne
  obtain ⟨cs, hcs⟩ : ∃ cs, b.finish.children i = cs ++ [x] := List.getLast?_eq_some_iff.mp hlast
  have hold : Tiles stop (i + 1) (cs ++ [x]) (stop i) := hcs ▸ h.tiles i hi
  obtain ⟨m, hleft, hxm, -, -⟩ := hold.of_append
  have hsame : ∀ c ∈ cs, b.stopAfter stop c = stop c := by
    intro d hd
    have hdi : d ∈ b.finish.children i := by
      rw [hcs]
      exact List.mem_append_left _ hd
    refine h.stopAfter_child hi hdi fun hdo => ?_
    -- An open child is the last one, but this one stands in front of the last one.
    have hdx := (h.getLast?_children_of_mem_openPath hi hdi hdo).2
    rw [hlast] at hdx
    have hlt : d < m := (hleft.mem_bounds hd).2
    rw [← hxm, Option.some.inj hdx] at hlt
    exact lt_irrefl _ hlt
  have hnew : b.stopAfter stop x = b.nodes.size + 1 := stopAfter_of_mem hx
  rw [hcs, ← hnew]
  refine hold.extend_last hsame ?_
  rw [hnew, hstop]
  exact Nat.le_succ _

/-- The interval of a closed node stays as it is. -/
lemma tiles_closed (h : b.Numbered stop) {i : Nat} (hi : i < b.nodes.size)
    (hclosed : i ∉ b.openPath) :
    Tiles (b.stopAfter stop) (i + 1) (b.finish.children i) (stop i) :=
  (h.tiles i hi).congr fun _ hd => h.stopAfter_child hi hd fun hopen =>
    hclosed (h.getLast?_children_of_mem_openPath hi hd hopen).1

/-- After a leaf has been added, the children of each node still tile its interval. -/
lemma tiles_leaf (h : b.Numbered stop) (kind : SyntaxKind) (span : Span) {i : Nat}
    (hi : i < b.nodes.size + 1) :
    Tiles (b.stopAfter stop) (i + 1) ((b.leaf kind span).finish.children i)
      (b.stopAfter stop i) := by
  have hcur : b.current < b.nodes.size := (h.unfinished _ b.current_mem_openPath).1
  rw [children_leaf b kind span i hcur]
  rcases Nat.lt_succ_iff_lt_or_eq.mp hi with hi | rfl
  · by_cases hic : i = b.current
    · subst hic
      rw [if_pos rfl, stopAfter_of_mem b.current_mem_openPath]
      exact h.tiles_current
    · rw [if_neg hic]
      by_cases hopen : i ∈ b.openPath
      · rw [stopAfter_of_mem hopen]
        exact h.tiles_open hopen hic
      · rw [stopAfter_of_not_mem hi hopen]
        exact h.tiles_closed hi hopen
  · -- The new node has no children.
    rw [if_neg hcur.ne', children_eq_nil le_rfl, stopAfter_size]
    rfl

/-- After a leaf has been added, each node is still the parent of its children. -/
lemma parent_of_mem_children_leaf (h : b.Numbered stop) (kind : SyntaxKind) (span : Span)
    {i d : Nat} (hd : d ∈ (b.leaf kind span).finish.children i) :
    ((b.leaf kind span).finish.get? d).bind (·.parent) = some i := by
  have hcur : b.current < b.nodes.size := (h.unfinished _ b.current_mem_openPath).1
  have hold : ∀ {j}, d ∈ b.finish.children j → d < b.nodes.size := by
    intro j hdj
    have hj : j < b.nodes.size := lt_of_mem_children hdj
    exact ((h.tiles j hj).mem_bounds hdj).2.trans_le (h.bounded j hj)
  rw [parent_leaf]
  rw [children_leaf b kind span i hcur] at hd
  split at hd
  · rename_i hic
    subst hic
    rcases List.mem_append.mp hd with hd | hd
    · rw [if_neg (hold hd).ne]
      exact h.parent _ d hd
    · rw [if_pos (List.mem_singleton.mp hd)]
  · rw [if_neg (hold hd).ne]
    exact h.parent i d hd

/-- After a leaf has been added, the open nodes are still linked by last children. -/
lemma spine_leaf (h : b.Numbered stop) (kind : SyntaxKind) (span : Span) :
    b.openPath.IsChain fun inner outer =>
      ((b.leaf kind span).finish.children outer).getLast? = some inner := by
  have hcur : b.current < b.nodes.size := (h.unfinished _ b.current_mem_openPath).1
  obtain ⟨outer, hpath⟩ := b.openPath_eq_cons
  have hdesc := h.descending
  have hspine := h.spine
  rw [hpath] at hdesc hspine ⊢
  refine hspine.imp_of_mem_tail_imp fun x o _ ho hlast => ?_
  -- The innermost open node, whose children change, is not the outer one of two.
  have hne : o ≠ b.current := ((List.pairwise_cons.mp hdesc).1 o ho).ne
  rwa [children_leaf b kind span o hcur, if_neg hne]

/-- The invariant is kept when a leaf is added. -/
lemma leaf (h : b.Numbered stop) (kind : SyntaxKind) (span : Span) :
    (b.leaf kind span).Numbered (b.stopAfter stop) where
  tiles i hi := h.tiles_leaf kind span (size_leaf b kind span ▸ hi)
  bounded i hi := by
    rw [size_leaf] at hi ⊢
    unfold stopAfter
    split
    · exact le_rfl
    · have := h.bounded i (by omega)
      omega
  parent _ _ hd := h.parent_of_mem_children_leaf kind span hd
  descending := h.descending
  unfinished o ho := by
    have ho : o ∈ b.openPath := ho
    rw [size_leaf, stopAfter_of_mem ho]
    exact ⟨Nat.lt_succ_of_lt (h.unfinished o ho).1, rfl⟩
  spine := h.spine_leaf kind span

/-- The invariant is kept when a node is opened. -/
lemma openNode (h : b.Numbered stop) (kind : SyntaxKind) (span : Span) :
    (b.openNode kind span).Numbered (b.stopAfter stop) where
  tiles := (h.leaf kind span).tiles
  bounded := (h.leaf kind span).bounded
  parent := (h.leaf kind span).parent
  descending := List.pairwise_cons.mpr ⟨fun o ho => (h.unfinished o ho).1, h.descending⟩
  unfinished o ho := by
    rcases List.mem_cons.mp ho with rfl | ho
    · refine ⟨?_, ?_⟩
      · exact (size_leaf b kind span) ▸ Nat.lt_succ_self _
      · exact (size_leaf b kind span) ▸ stopAfter_size b stop
    · exact (h.leaf kind span).unfinished o ho
  spine := by
    have hcur : b.current < b.nodes.size := (h.unfinished _ b.current_mem_openPath).1
    have hspine := h.spine_leaf kind span
    obtain ⟨outer, hpath⟩ := b.openPath_eq_cons
    have hnew : (b.openNode kind span).openPath = b.nodes.size :: b.current :: outer :=
      congrArg (b.nodes.size :: ·) hpath
    rw [hpath] at hspine
    rw [hnew]
    refine List.isChain_cons_cons.mpr ⟨?_, hspine⟩
    change ((b.leaf kind span).finish.children b.current).getLast? = some b.nodes.size
    rw [children_leaf b kind span _ hcur, if_pos rfl, List.getLast?_concat]

/-- The invariant is kept when a node is closed. -/
lemma closeNode (h : b.Numbered stop) : b.closeNode.Numbered stop := by
  obtain ⟨file, nodes, openNodes⟩ := b
  cases openNodes with
  | nil => exact h
  | cons c cs =>
    exact ⟨h.tiles, h.bounded, h.parent, h.descending.tail,
      fun o ho => h.unfinished o (List.mem_cons_of_mem c ho), h.spine.tail⟩

/-- The invariant is kept by every step. -/
lemma apply (h : b.Numbered stop) (step : Step) : ∃ stop', (b.apply step).Numbered stop' := by
  cases step with
  | openNode kind span => exact ⟨_, h.openNode kind span⟩
  | leaf kind span => exact ⟨_, h.leaf kind span⟩
  | closeNode => exact ⟨_, h.closeNode⟩

/-- The invariant is kept by every run. -/
lemma applyAll (h : b.Numbered stop) (steps : List Step) :
    ∃ stop', (b.applyAll steps).Numbered stop' := by
  induction steps generalizing b stop with
  | nil => exact ⟨stop, h⟩
  | cons step steps ih =>
    obtain ⟨stop', h'⟩ := h.apply step
    exact ih h'

end Numbered

end TreeBuilder

namespace SyntaxTree

/-- The nodes of a built tree are numbered in preorder. -/
theorem preorder_eq_range {t : SyntaxTree} (h : t.Built) : t.preorder = List.range t.size := by
  obtain ⟨file, span, steps, rfl⟩ := h
  obtain ⟨stop, hb⟩ := (TreeBuilder.numbered_start file span).applyAll steps
  set b := (TreeBuilder.start file span).applyAll steps
  obtain ⟨hroot, hstop⟩ := hb.unfinished root (by simp [TreeBuilder.openPath])
  have htile : Tiles stop 0 [root] b.finish.size := ⟨rfl, by rw [hstop]; exact hroot, hstop⟩
  have hvisit := visit_eq_range' (t := b.finish) hb.tiles b.finish.size htile le_rfl
  rw [preorder, preorderFrom, hvisit, Nat.sub_zero, min_self, List.range_eq_range']

end SyntaxTree

end InlineExpect
