import Mathlib
import InlineExpect.Checker.Engine
import InlineExpect.Proofs.Matching.StableSort
import InlineExpect.Proofs.Text.ByteOrder

/-!
# Sorted diagnostics

Diagnostics are sorted by file and offset, and those at one position keep the order in which they
were reported.  A list that is rearranged so is a stable sort of them (`Diagnostic.IsStableSort`),
and there is only one: the keys come in the one order that the positions have, and the diagnostics
with each key in the one order that they had.  So it does not matter whether diagnostics are sorted
again, or whether those about the emission of code are left out before or after.

The names of files are compared by their bytes, which is how they are compared as texts
(`Text.utf8_lt_iff`).
-/

namespace InlineExpect

namespace Diagnostic

open Text

/-- Whether a file stands before another one: by the bytes of their names, and behind no file. -/
def FileLt : Option String → Option String → Prop
  | none, some _ => True
  | some a, some b => utf8 a.toList < utf8 b.toList
  | _, none => False

/-- Whether a position stands at most where another one does: by the file, and then by the
offset. -/
def PositionLe (p q : Option String × Nat) : Prop := FileLt p.1 q.1 ∨ p.1 = q.1 ∧ p.2 ≤ q.2

/-- Files are ordered by the bytes of their names. -/
lemma fileBefore_eq_true_iff (f g : Option String) : fileBefore f g = true ↔ FileLt f g := by
  match f, g with
  | none, none => exact iff_of_false Bool.false_ne_true id
  | none, some _ => exact iff_of_true rfl trivial
  | some _, none => exact iff_of_false Bool.false_ne_true id
  | some a, some b =>
    rw [fileBefore, decide_eq_true_iff, String.lt_iff_toList_lt]
    exact utf8_lt_iff.symm

/-- A diagnostic may stand in front of another one as their positions say. -/
lemma le_iff_positionLe (d e : Diagnostic) :
    le d e = true ↔ PositionLe d.position e.position := by
  rw [le, Bool.or_eq_true, Bool.and_eq_true, fileBefore_eq_true_iff, beq_iff_eq,
    decide_eq_true_iff]
  exact Iff.rfl

/-- A list is a stable sort of diagnostics if it holds the same ones in order, and those at each
position as they came. -/
structure IsStableSort (ds sorted : List Diagnostic) : Prop where
  perm : sorted.Perm ds
  ordered : ∀ i j (hij : i < j) (hj : j < sorted.length),
    PositionLe sorted[i].position sorted[j].position
  keepsOrder : ∀ p, sorted.filter (fun d => d.position = p) = ds.filter fun d => d.position = p

/-- Sorting is a stable sort. -/
lemma isStableSort_sort (ds : List Diagnostic) : IsStableSort ds (sort ds) where
  perm := sort_perm ds
  ordered i j hij hj := by
    have hpairwise := List.pairwise_mergeSort ordersBy_position.trans ordersBy_position.total ds
    exact (le_iff_positionLe _ _).mp (List.pairwise_iff_getElem.mp hpairwise i j _ hj hij)
  keepsOrder p := ordersBy_position.filter_key_mergeSort p ds

namespace IsStableSort

variable {ds sorted : List Diagnostic}

/-- A stable sort is in order. -/
lemma pairwise (h : IsStableSort ds sorted) : sorted.Pairwise fun d e => le d e = true :=
  List.pairwise_iff_getElem.mpr fun i j _ hj hij =>
    (le_iff_positionLe _ _).mpr (h.ordered i j hij hj)

/-- There is one stable sort of diagnostics only. -/
lemma eq_sort (h : IsStableSort ds sorted) : sorted = sort ds := by
  have hsort := isStableSort_sort ds
  refine ordersBy_position.eq_of_pairwise (h.perm.trans hsort.perm.symm) h.pairwise hsort.pairwise
    fun p => ?_
  rw [h.keepsOrder, hsort.keepsOrder]

end IsStableSort

/-- Diagnostics in order are not moved. -/
lemma sort_sort (ds : List Diagnostic) : sort (sort ds) = sort ds :=
  List.mergeSort_of_pairwise (isStableSort_sort ds).pairwise

/-- Sorting diagnostics gives the one stable sort of them by file and offset.  It does nothing the
second time, and diagnostics about the emission of code can be left out before or after it. -/
theorem sort_onlyStableSort (ds : List Diagnostic) :
    IsStableSort ds (sort ds) ∧ (∀ sorted, IsStableSort ds sorted → sorted = sort ds) ∧
      sort (sort ds) = sort ds ∧ (sort ds).filter isPreEmit = sort (ds.filter isPreEmit) ∧
      ∀ (e : Engine) (version : Version) (file : String), e.diagnostics file = .ok ds →
        (e.oracle version).diagnostics file = .ok ((sort ds).filter isPreEmit) := by
  have hfilter : (sort ds).filter isPreEmit = sort (ds.filter isPreEmit) :=
    ordersBy_position.filter_mergeSort isPreEmit ds
  refine ⟨isStableSort_sort ds, fun sorted h => h.eq_sort, sort_sort ds, hfilter,
    fun e version file h => ?_⟩
  rw [hfilter, Engine.oracle]
  exact congrArg (Except.map preEmit) h

end Diagnostic

end InlineExpect
