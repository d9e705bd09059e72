import Mathlib
import InlineExpect.Snapshot.Document

/-!
# Addresses in recorded trees

A recorded tree has its nodes inside each other, and equal nodes may occur in it more than once.
What tells them apart is their address, which is the list of the positions that lead down to a node
from the root.  Preorder is the lexicographic order of the addresses, so that the number of a node
is the index of its address in the list `RecordedNode.addresses`.  The nodes in preorder are the
nodes at these addresses (`RecordedNode.map_some_preorder`).
-/

namespace InlineExpect

namespace RecordedNode

/-- The node at an address. -/
def at? (n : RecordedNode) : List Nat → Option RecordedNode
  | [] => some n
  | k :: p => n.children[k]?.bind fun c => c.at? p

mutual

/-- The addresses of a tree in preorder. -/
def addresses : RecordedNode → List (List Nat)
  | ⟨_, _, _, _, children⟩ => [] :: addressesFrom 0 children

/-- The addresses of some siblings in preorder, the first of which has the position `k`. -/
def addressesFrom (k : Nat) : List RecordedNode → List (List Nat)
  | [] => []
  | n :: ns => n.addresses.map (k :: ·) ++ addressesFrom (k + 1) ns

end

/-- The number of nodes of a tree. -/
def size (n : RecordedNode) : Nat := n.addresses.length

/-- The number of nodes of some trees. -/
def sizeAll (ns : List RecordedNode) : Nat := (ns.map size).sum

/-- The number of the node with an address: its place in preorder. -/
def number (n : RecordedNode) (p : List Nat) : Nat := n.addresses.idxOf p

variable {n m c : RecordedNode} {ns : List RecordedNode} {k j : Nat} {p q : List Nat}

lemma addresses_eq (n : RecordedNode) : n.addresses = [] :: addressesFrom 0 n.children := by
  cases n
  rw [addresses]

@[simp] lemma number_nil (n : RecordedNode) : n.number [] = 0 := by
  rw [number, addresses_eq, List.idxOf_cons_self]

@[simp] lemma length_addressesFrom (k : Nat) (ns : List RecordedNode) :
    (addressesFrom k ns).length = sizeAll ns := by
  induction ns generalizing k with
  | nil => rfl
  | cons n ns ih =>
    rw [addressesFrom, List.length_append, List.length_map, ih]
    rfl

lemma size_eq (n : RecordedNode) : n.size = sizeAll n.children + 1 := by
  rw [size, addresses_eq, List.length_cons, length_addressesFrom]

/-- A child has fewer nodes. -/
lemma size_lt_of_mem (h : c ∈ n.children) : c.size < n.size := by
  have hle : c.size ≤ sizeAll n.children := List.single_le_sum (by simp) _ (List.mem_map_of_mem h)
  rw [size_eq n]
  omega

/-! ### Which addresses there are -/

/-- An address below some siblings leads through one of them. -/
lemma mem_addressesFrom_iff : q ∈ addressesFrom j ns ↔
    ∃ k c p, q = (j + k) :: p ∧ ns[k]? = some c ∧ p ∈ c.addresses := by
  induction ns generalizing j with
  | nil => simp [addressesFrom]
  | cons n ns ih =>
    rw [addressesFrom, List.mem_append, List.mem_map, ih]
    constructor
    · rintro (⟨p, hp, rfl⟩ | ⟨k, c, p, rfl, hc, hp⟩)
      · exact ⟨0, n, p, rfl, rfl, hp⟩
      · exact ⟨k + 1, c, p, by rw [Nat.add_right_comm, Nat.add_assoc], hc, hp⟩
    · rintro ⟨k, c, p, rfl, hc, hp⟩
      cases k with
      | zero =>
        obtain rfl : n = c := Option.some.inj hc
        exact .inl ⟨p, hp, rfl⟩
      | succ k => exact .inr ⟨k, c, p, by rw [Nat.add_right_comm, Nat.add_assoc], hc, hp⟩

/-- An address that is not the one of the root leads through a child. -/
lemma cons_mem_addresses_iff :
    k :: p ∈ n.addresses ↔ ∃ c, n.children[k]? = some c ∧ p ∈ c.addresses := by
  rw [addresses_eq, List.mem_cons, mem_addressesFrom_iff]
  constructor
  · rintro (h | ⟨j, c, q, hq, hc, hp⟩)
    · cases h
    · rw [Nat.zero_add] at hq
      obtain ⟨rfl, rfl⟩ := List.cons.inj hq
      exact ⟨c, hc, hp⟩
  · rintro ⟨c, hc, hp⟩
    exact .inr ⟨k, c, p, by rw [Nat.zero_add], hc, hp⟩

/-- The addresses of a tree are those at which it has a node. -/
lemma mem_addresses_iff : p ∈ n.addresses ↔ (n.at? p).isSome := by
  induction p generalizing n with
  | nil =>
    rw [addresses_eq]
    simp [at?]
  | cons k p ih =>
    rw [cons_mem_addresses_iff, at?]
    cases n.children[k]? with
    | none => simp
    | some c => simpa using ih

lemma mem_addresses_of_at? (h : n.at? p = some m) : p ∈ n.addresses :=
  mem_addresses_iff.mpr (by rw [h]; rfl)

/-- The address goes on at the node that it leads to. -/
lemma at?_append (n : RecordedNode) (p q : List Nat) :
    n.at? (p ++ q) = (n.at? p).bind fun m => m.at? q := by
  induction p generalizing n with
  | nil => rfl
  | cons k p ih =>
    rw [List.cons_append, at?, at?]
    cases n.children[k]? with
    | none => rfl
    | some c => exact ih c

/-- The children of a node are found one position below it. -/
lemma at?_concat (h : n.at? p = some m) (k : Nat) : n.at? (p ++ [k]) = m.children[k]? := by
  rw [at?_append, h, Option.bind_some, at?]
  cases m.children[k]? <;> rfl

/-- A node other than the root has a parent in the tree. -/
lemma dropLast_mem_addresses (h : p ∈ n.addresses) : p.dropLast ∈ n.addresses := by
  rcases List.eq_nil_or_concat p with rfl | ⟨q, k, rfl⟩
  · exact h
  · rw [List.concat_eq_append] at h ⊢
    rw [List.dropLast_concat, mem_addresses_iff]
    rw [mem_addresses_iff, at?_append] at h
    exact Option.isSome_of_isSome_bind h

/-! ### Preorder is lexicographic -/

mutual

/-- The addresses of a tree are listed in lexicographic order. -/
theorem pairwise_addresses : ∀ n : RecordedNode, n.addresses.Pairwise (· < ·)
  | ⟨_, _, _, _, children⟩ => by
    rw [addresses]
    refine List.pairwise_cons.mpr ⟨fun q hq => ?_, pairwise_addressesFrom 0 children⟩
    obtain ⟨k, c, p, rfl, -, -⟩ := mem_addressesFrom_iff.mp hq
    exact List.nil_lt_cons _ _

/-- The addresses of some siblings are listed in lexicographic order. -/
theorem pairwise_addressesFrom (k : Nat) :
    ∀ ns : List RecordedNode, (addressesFrom k ns).Pairwise (· < ·)
  | [] => .nil
  | n :: ns => by
    rw [addressesFrom]
    refine List.pairwise_append.mpr ⟨?_, pairwise_addressesFrom (k + 1) ns, ?_⟩
    · exact List.pairwise_map.mpr ((pairwise_addresses n).imp fun h => List.cons_lt_cons_self.mpr h)
    · intro q hq r hr
      obtain ⟨p, -, rfl⟩ := List.mem_map.mp hq
      obtain ⟨j, c, s, rfl, -, -⟩ := mem_addressesFrom_iff.mp hr
      exact List.Lex.rel (by omega)

end

/-- No address is listed twice. -/
lemma nodup_addresses (n : RecordedNode) : n.addresses.Nodup :=
  (pairwise_addresses n).imp fun h => ne_of_lt h

/-- The address at a place of the list has this place as its number. -/
lemma number_of_getElem? {i : Nat} (h : n.addresses[i]? = some p) : n.number p = i := by
  obtain ⟨hi, rfl⟩ := List.getElem?_eq_some_iff.mp h
  exact (nodup_addresses n).idxOf_getElem i hi

/-! ### Counting -/

/-- Before a node below some siblings come the siblings in front of the one it is in, and what this
one has in front of it. -/
lemma getElem?_addressesFrom {i : Nat} (hc : ns[k]? = some c) (hp : c.addresses[i]? = some p) :
    (addressesFrom j ns)[sizeAll (ns.take k) + i]? = some ((j + k) :: p) := by
  induction ns generalizing j k with
  | nil => cases hc
  | cons n ns ih =>
    rw [addressesFrom]
    cases k with
    | zero =>
      obtain rfl : n = c := Option.some.inj hc
      have hi : i < (n.addresses.map (j :: ·)).length := by
        rw [List.length_map]
        exact (List.getElem?_eq_some_iff.mp hp).1
      rw [List.take_zero, show sizeAll [] = 0 from rfl, Nat.zero_add,
        List.getElem?_append_left hi, List.getElem?_map, hp]
      rfl
    | succ k =>
      have hsize : sizeAll ((n :: ns).take (k + 1)) + i =
          (n.addresses.map (j :: ·)).length + (sizeAll (ns.take k) + i) := by
        rw [List.take_succ_cons, List.length_map, ← Nat.add_assoc]
        rfl
      rw [hsize, List.getElem?_append_right (Nat.le_add_right _ _), Nat.add_sub_cancel_left, ih hc,
        Nat.add_right_comm, Nat.add_assoc]

/-- A node below a child comes behind the root, the siblings in front of the child, and what the
child has in front of it. -/
lemma number_cons (hc : n.children[k]? = some c) (hp : p ∈ c.addresses) :
    n.number (k :: p) = sizeAll (n.children.take k) + c.number p + 1 := by
  refine number_of_getElem? ?_
  rw [addresses_eq, List.getElem?_cons_succ]
  have h := getElem?_addressesFrom (j := 0) hc (List.getElem?_idxOf hp)
  rwa [Nat.zero_add] at h

/-! ### Nodes in preorder -/

mutual

/-- The nodes of a tree in preorder. -/
def preorder : RecordedNode → List RecordedNode
  | ⟨kind, start, stop, type, children⟩ =>
    ⟨kind, start, stop, type, children⟩ :: preorderAll children

/-- The nodes of some trees in preorder. -/
def preorderAll : List RecordedNode → List RecordedNode
  | [] => []
  | n :: ns => n.preorder ++ preorderAll ns

end

lemma preorder_eq (n : RecordedNode) : n.preorder = n :: preorderAll n.children := by
  cases n
  rw [preorder]

mutual

/-- The nodes of a tree in preorder are those at its addresses. -/
theorem map_some_preorder : ∀ n : RecordedNode, n.preorder.map some = n.addresses.map n.at?
  | ⟨kind, start, stop, type, children⟩ => by
    rw [preorder, addresses, List.map_cons, List.map_cons,
      map_some_preorderAll ⟨kind, start, stop, type, children⟩ [] children rfl]
    rfl

/-- The nodes of some siblings in preorder are those at their addresses below the parent. -/
theorem map_some_preorderAll (parent : RecordedNode) (front : List RecordedNode) :
    ∀ ns : List RecordedNode, parent.children = front ++ ns →
      (preorderAll ns).map some = (addressesFrom front.length ns).map parent.at?
  | [], _ => rfl
  | n :: ns, h => by
    have hn : parent.children[front.length]? = some n := by
      rw [h, List.getElem?_append_right (Nat.le_refl _), Nat.sub_self]
      rfl
    have hat : parent.at? ∘ (front.length :: ·) = n.at? := by
      funext p
      rw [Function.comp_apply, at?, hn, Option.bind_some]
    have hrest := map_some_preorderAll parent (front ++ [n]) ns
      (by rw [h, List.append_assoc]; rfl)
    rw [List.length_append] at hrest
    rw [preorderAll, addressesFrom, List.map_append, List.map_append, List.map_map, hat,
      map_some_preorder n, hrest]
    rfl

end

end RecordedNode

end InlineExpect
