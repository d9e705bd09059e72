import Mathlib
import InlineExpect.Diagnostic.Order
import InlineExpect.Matching.Failure

/-!
# Sorting by a key

Diagnostics and failures are sorted by orders that look only at a part of them, their key
(`OrdersBy`).  Two lists of the same things, in whatever order, then give the same sequence of keys
when they are sorted (`OrdersBy.map_key_mergeSort`).  Sorting is stable, and the things with one key
keep their order.  So it depends only on the order within each key how things are sorted
(`OrdersBy.mergeSort_eq_mergeSort`), and it does not matter whether some of them are left out before
or after (`OrdersBy.filter_mergeSort`).
-/

namespace InlineExpect

/-! ### Orders that look at a key -/

/-- An order that is total, and that puts two things in front of each other exactly if they have the
same key. -/
structure OrdersBy {α κ : Type} (le : α → α → Bool) (key : α → κ) : Prop where
  trans : ∀ a b c, le a b = true → le b c = true → le a c = true
  total : ∀ a b, (le a b || le b a) = true
  key_eq : ∀ a b, le a b = true → le b a = true → key a = key b
  le_of_key_eq : ∀ a b, key a = key b → le a b = true

namespace OrdersBy

variable {α κ : Type} {le : α → α → Bool} {key : α → κ} {l₁ l₂ : List α}

/-- Between keys the order is antisymmetric. -/
lemma map_antisymm (h : OrdersBy le key) {j k : κ}
    (hjk : Relation.Map (fun a b => le a b = true) key key j k)
    (hkj : Relation.Map (fun a b => le a b = true) key key k j) : j = k := by
  obtain ⟨a, b, hab, rfl, rfl⟩ := hjk
  obtain ⟨b', a', hba, hb, ha⟩ := hkj
  have hba' : le b a' = true := h.trans b b' a' (h.le_of_key_eq b b' hb.symm) hba
  exact h.key_eq a b hab (h.trans b a' a hba' (h.le_of_key_eq a' a ha))

/-- The keys of a list in order are determined by the things in it. -/
lemma map_key_eq (h : OrdersBy le key) (hperm : l₁.Perm l₂)
    (h₁ : l₁.Pairwise fun a b => le a b = true) (h₂ : l₂.Pairwise fun a b => le a b = true) :
    l₁.map key = l₂.map key := by
  have hmap : ∀ {l : List α}, (l.Pairwise fun a b => le a b = true) →
      (l.map key).Pairwise (Relation.Map (fun a b => le a b = true) key key) := by
    intro l hl
    exact List.pairwise_map.mpr (hl.imp fun hab => ⟨_, _, hab, rfl, rfl⟩)
  exact List.Perm.eq_of_pairwise (fun _ _ _ _ => h.map_antisymm) (hmap h₁) (hmap h₂)
    (hperm.map key)

/-- The same things are sorted into the same sequence of keys. -/
theorem map_key_mergeSort (h : OrdersBy le key) (hperm : l₁.Perm l₂) :
    (l₁.mergeSort le).map key = (l₂.mergeSort le).map key := by
  refine h.map_key_eq ?_ (List.pairwise_mergeSort h.trans h.total l₁)
    (List.pairwise_mergeSort h.trans h.total l₂)
  exact (List.mergeSort_perm l₁ le).trans (hperm.trans (List.mergeSort_perm l₂ le).symm)

variable [DecidableEq κ]

/-- The things with one key keep their order when they are sorted. -/
lemma filter_key_mergeSort (h : OrdersBy le key) (k : κ) (l : List α) :
    (l.mergeSort le).filter (fun a => key a = k) = l.filter fun a => key a = k := by
  have hkeys : (l.filter fun a => key a = k).Pairwise fun a b => le a b = true := by
    refine List.pairwise_iff_forall_sublist.mpr fun {a b} hab => h.le_of_key_eq a b ?_
    have hmem : ∀ {x : α}, x ∈ [a, b] → key x = k := by
      intro x hx
      simpa using List.of_mem_filter (hab.subset hx)
    rw [hmem List.mem_cons_self, hmem (List.mem_cons_of_mem a List.mem_cons_self)]
  -- The things with one key are in order already, and such a part of a list is left in place.
  have hsub := List.sublist_mergeSort h.trans h.total hkeys List.filter_sublist
  have hfilter := hsub.filter fun a => decide (key a = k)
  rw [List.filter_filter] at hfilter
  simp only [Bool.and_self] at hfilter
  refine (hfilter.eq_of_length ?_).symm
  exact ((List.mergeSort_perm l le).filter _).length_eq.symm

end OrdersBy

/-- Lists with the same sequence of keys are the same if the things with each key are. -/
lemma eq_of_map_key_eq {α κ : Type} [DecidableEq κ] {key : α → κ} {l₁ l₂ : List α}
    (hkeys : l₁.map key = l₂.map key)
    (h : ∀ k, l₁.filter (fun a => key a = k) = l₂.filter fun a => key a = k) : l₁ = l₂ := by
  induction l₁ generalizing l₂ with
  | nil => exact (List.map_eq_nil_iff.mp hkeys.symm).symm
  | cons a l₁ ih =>
    obtain ⟨b, l₂, rfl, hab, htail⟩ := List.map_eq_cons_iff.mp hkeys.symm
    have hhead := h (key a)
    rw [List.filter_cons_of_pos (by simp), List.filter_cons_of_pos (by simpa using hab)] at hhead
    obtain ⟨rfl, -⟩ := List.cons.inj hhead
    refine congrArg (a :: ·) (ih htail.symm fun k => ?_)
    have hk := h k
    by_cases hak : key a = k
    · rw [List.filter_cons_of_pos (by simpa using hak),
        List.filter_cons_of_pos (by simpa using hak)] at hk
      exact (List.cons.inj hk).2
    · rwa [List.filter_cons_of_neg (by simpa using hak),
        List.filter_cons_of_neg (by simpa using hak)] at hk

/-- Lists of the same things are sorted alike if the things with each key come in the same order. -/
theorem OrdersBy.mergeSort_eq_mergeSort {α κ : Type} [DecidableEq κ] {le : α → α → Bool}
    {key : α → κ} {l₁ l₂ : List α} (h : OrdersBy le key) (hperm : l₁.Perm l₂)
    (hkeys : ∀ k, l₁.filter (fun a => key a = k) = l₂.filter fun a => key a = k) :
    l₁.mergeSort le = l₂.mergeSort le := by
  refine eq_of_map_key_eq (h.map_key_mergeSort hperm) fun k => ?_
  rw [h.filter_key_mergeSort, h.filter_key_mergeSort, hkeys]

namespace OrdersBy

variable {α κ : Type} [DecidableEq κ] {le : α → α → Bool} {key : α → κ} {l₁ l₂ : List α}

/-- Lists in order are the same if they hold the same things, and those with each key in the same
order. -/
lemma eq_of_pairwise (h : OrdersBy le key) (hperm : l₁.Perm l₂)
    (h₁ : l₁.Pairwise fun a b => le a b = true) (h₂ : l₂.Pairwise fun a b => le a b = true)
    (hkeys : ∀ k, l₁.filter (fun a => key a = k) = l₂.filter fun a => key a = k) : l₁ = l₂ :=
  eq_of_map_key_eq (h.map_key_eq hperm h₁ h₂) hkeys

/-- What is left out may be left out before or after sorting. -/
theorem filter_mergeSort (h : OrdersBy le key) (p : α → Bool) (l : List α) :
    (l.mergeSort le).filter p = (l.filter p).mergeSort le := by
  have hordered := List.pairwise_mergeSort h.trans h.total
  refine h.eq_of_pairwise ?_ ((hordered l).filter p) (hordered (l.filter p)) fun k => ?_
  · exact ((List.mergeSort_perm l le).filter p).trans (List.mergeSort_perm (l.filter p) le).symm
  · rw [List.filter_comm, h.filter_key_mergeSort, h.filter_key_mergeSort, List.filter_comm]

end OrdersBy

/-- An order that compares the ranks of keys in a linear order looks only at the keys. -/
lemma ordersBy_of_le_iff {α κ ρ : Type} [LinearOrder ρ] {le : α → α → Bool} {key : α → κ}
    {rank : κ → ρ} (hrank : Function.Injective rank)
    (h : ∀ a b, le a b = true ↔ rank (key a) ≤ rank (key b)) : OrdersBy le key where
  trans a b c := by
    rw [h, h, h]
    exact le_trans
  total a b := by
    rw [Bool.or_eq_true, h, h]
    exact le_total _ _
  key_eq a b := by
    rw [h, h]
    exact fun hab hba => hrank (le_antisymm hab hba)
  le_of_key_eq a b hkey := by
    rw [h, hkey]

/-! ### The order of diagnostics -/

namespace Diagnostic

/-- What the order of diagnostics looks at: the file, and the offset in it. -/
def position (d : Diagnostic) : Option String × Nat := (d.file, d.start)

/-- Files are ordered by their names, behind no file at all. -/
lemma fileBefore_iff (f g : WithBot String) : fileBefore f g = true ↔ f < g := by
  cases f with
  | bot =>
    cases g with
    | bot => exact iff_of_false Bool.false_ne_true (lt_irrefl _)
    | coe b => exact iff_of_true rfl (WithBot.bot_lt_coe b)
  | coe a =>
    cases g with
    | bot => exact iff_of_false Bool.false_ne_true not_lt_bot
    | coe b => exact decide_eq_true_iff.trans WithBot.coe_lt_coe.symm

/-- Diagnostics are ordered by their positions. -/
theorem ordersBy_position : OrdersBy le position := by
  let rank (p : Option String × Nat) : WithBot String ×ₗ Nat := toLex p
  have hrank : Function.Injective rank := toLex.injective
  refine ordersBy_of_le_iff hrank fun d e => ?_
  refine Iff.trans ?_ Prod.Lex.toLex_le_toLex.symm
  rw [le, Bool.or_eq_true, Bool.and_eq_true, beq_iff_eq, decide_eq_true_iff]
  exact or_congr (fileBefore_iff d.file e.file) Iff.rfl

end Diagnostic

/-! ### The order of failures -/

/-- The kinds of failures have different ranks. -/
lemma FailureKind.rank_injective : Function.Injective rank := by
  intro j k h
  cases j <;> cases k <;> first | rfl | cases h

namespace Failure

/-- What the order of failures looks at: the line, the column and the kind. -/
def key (f : Failure) : Nat × Nat × FailureKind := (f.line, f.column, f.kind)

/-- The rank of a key: by line, then by column, and then by kind. -/
def rank (k : Nat × Nat × FailureKind) : Nat ×ₗ Nat ×ₗ Nat := toLex (k.1, toLex (k.2.1, k.2.2.rank))

/-- Different keys have different ranks. -/
lemma rank_injective : Function.Injective rank := by
  intro j k hjk
  obtain ⟨hline, hrest⟩ := Prod.mk.inj (toLex.injective hjk)
  obtain ⟨hcolumn, hkind⟩ := Prod.mk.inj (toLex.injective hrest)
  exact Prod.ext hline (Prod.ext hcolumn (FailureKind.rank_injective hkind))

/-- A failure may stand in front of another one unless its key has a higher rank. -/
lemma le_iff_rank_le (f g : Failure) : le f g = true ↔ rank f.key ≤ rank g.key := by
  simp only [le, Bool.or_eq_true, Bool.and_eq_true, decide_eq_true_eq, beq_iff_eq, rank, key,
    Prod.Lex.toLex_le_toLex]

/-- Failures are ordered by their keys. -/
theorem ordersBy_key : OrdersBy le key := ordersBy_of_le_iff rank_injective le_iff_rank_le

end Failure

end InlineExpect
