import Mathlib
import InlineExpect.Version.List

/-!
# The order of versions

Versions are linearly ordered by age, with the unreleased one at the top.  A list of versions of
which no two neighbours descend ascends everywhere, so that its ends are its least and its greatest
version (`VersionList.isLeast_lowest`, `VersionList.isGreatest_highest`) and the versions up to a
cap are a front of it (`Version.exists_eq_filter_append`).
-/

namespace InlineExpect

namespace Version

instance : LinearOrder Version where
  le_refl v := (le_def v v).mpr (lt_irrefl v)
  le_trans u v w huv hvw := by
    rw [le_def] at *
    intro hwu
    rcases lt_trichotomy u v with h | rfl | h
    · exact hvw (lt_trans hwu h)
    · exact hvw hwu
    · exact huv h
  lt_iff_le_not_ge v w := by
    rw [le_def, le_def, not_not]
    exact ⟨fun h => ⟨fun h' => lt_irrefl v (lt_trans h h'), h⟩, And.right⟩
  le_antisymm v w hvw hwv := by
    rw [le_def] at *
    exact ((lt_trichotomy v w).resolve_left hwv).resolve_right hvw
  le_total v w := by
    rw [le_def, le_def]
    by_contra h
    rw [not_or, not_not, not_not] at h
    exact lt_irrefl v (lt_trans h.2 h.1)
  toDecidableLE := inferInstance
  toDecidableLT := inferInstance
  toDecidableEq := inferInstance

/-- No version is newer than the unreleased one. -/
lemma le_next (v : Version) : v ≤ .next := (le_def v .next).mpr (by simp [lt_def, older])

/-- Only the unreleased version is as new as itself. -/
lemma next_le_iff {v : Version} : .next ≤ v ↔ v = .next :=
  ⟨fun h => le_antisymm (le_next v) h, fun h => h ▸ le_rfl⟩

/-- Ascending versions begin with those up to a cap, and go on with newer ones. -/
lemma exists_eq_filter_append {vs : List Version} (h : vs.Pairwise (· < ·)) (cap : Version) :
    ∃ rest, vs = vs.filter (· ≤ cap) ++ rest ∧ ∀ v ∈ rest, cap < v := by
  induction vs with
  | nil => exact ⟨[], rfl, by simp⟩
  | cons v vs ih =>
    obtain ⟨hv, hvs⟩ := List.pairwise_cons.mp h
    by_cases hle : v ≤ cap
    · obtain ⟨rest, hrest, hlt⟩ := ih hvs
      refine ⟨rest, ?_, hlt⟩
      rw [List.filter_cons_of_pos (by simpa using hle), List.cons_append, ← hrest]
    · -- Behind the first version above the cap all are above it.
      have hnone : (v :: vs).filter (· ≤ cap) = [] := by
        rw [List.filter_eq_nil_iff]
        intro w hw
        rcases List.mem_cons.mp hw with rfl | hw
        · simpa using hle
        · simpa using (not_le.mp hle).trans (hv w hw)
      refine ⟨v :: vs, by rw [hnone, List.nil_append], fun w hw => ?_⟩
      rcases List.mem_cons.mp hw with rfl | hw
      · exact not_le.mp hle
      · exact (not_le.mp hle).trans (hv w hw)

end Version

namespace VersionList

/-! ### Versions by their indices -/

variable {l : VersionList} {i j : Nat} {v w : Version}

/-- The lowest version has index zero. -/
lemma get?_zero (l : VersionList) : l.get? 0 = some l.lowest := by
  unfold get? lowest
  rw [← List.head?_eq_getElem?, List.head?_eq_some_head l.ne_nil]

/-- The highest version has the last index. -/
lemma get?_last (l : VersionList) : l.get? (l.length - 1) = some l.highest := by
  unfold get? length highest
  rw [← List.getLast?_eq_getElem?, List.getLast?_eq_some_getLast l.ne_nil]

/-- A version of a list has an index. -/
lemma exists_get?_of_mem (h : v ∈ l.versions) : ∃ i, l.get? i = some v :=
  List.getElem?_of_mem h

/-- A version with an index is one of the list. -/
lemma mem_of_get? (h : l.get? i = some v) : v ∈ l.versions := List.mem_of_getElem? h

/-- Versions ascend with their indices. -/
lemma lt_of_get? (hi : l.get? i = some v) (hj : l.get? j = some w) (hij : i < j) : v < w := by
  obtain ⟨hilt, rfl⟩ := List.getElem?_eq_some_iff.mp hi
  obtain ⟨hjlt, rfl⟩ := List.getElem?_eq_some_iff.mp hj
  exact List.pairwise_iff_getElem.mp l.ascending i j hilt hjlt hij

/-- A version that is not above another one has no greater index. -/
lemma index_le_of_le (hi : l.get? i = some v) (hj : l.get? j = some w) (h : v ≤ w) : i ≤ j := by
  by_contra hlt
  exact h.not_gt (lt_of_get? hj hi (not_le.mp hlt))

/-- A version with a greater one has a smaller index. -/
lemma index_lt_of_lt (hi : l.get? i = some v) (hj : l.get? j = some w) (h : v < w) : i < j := by
  refine (index_le_of_le hi hj h.le).lt_of_ne fun hij => ?_
  rw [hij] at hi
  exact h.ne (Option.some.inj (hi.symm.trans hj))

/-- The lowest version is one of the list. -/
lemma lowest_mem (l : VersionList) : l.lowest ∈ l.versions := mem_of_get? l.get?_zero

/-- The highest version is one of the list. -/
lemma highest_mem (l : VersionList) : l.highest ∈ l.versions := mem_of_get? l.get?_last

/-- Every other version of a list is below the highest one. -/
lemma eq_highest_or_lt (h : v ∈ l.versions) : v = l.highest ∨ v < l.highest := by
  obtain ⟨i, hi⟩ := exists_get?_of_mem h
  have hlt : i < l.length := (List.getElem?_eq_some_iff.mp hi).1
  rcases (Nat.le_sub_one_of_lt hlt).eq_or_lt with rfl | hlast
  · exact .inl (Option.some.inj (hi.symm.trans l.get?_last))
  · exact .inr (lt_of_get? hi l.get?_last hlast)

/-- Every other version of a list is above the lowest one. -/
lemma eq_lowest_or_lt (h : v ∈ l.versions) : v = l.lowest ∨ l.lowest < v := by
  obtain ⟨i, hi⟩ := exists_get?_of_mem h
  rcases Nat.eq_zero_or_pos i with rfl | hpos
  · exact .inl (Option.some.inj (hi.symm.trans l.get?_zero))
  · exact .inr (lt_of_get? l.get?_zero hi hpos)

/-- The lowest version of a list is its least one. -/
theorem isLeast_lowest (l : VersionList) : IsLeast {v | v ∈ l.versions} l.lowest :=
  ⟨l.lowest_mem, fun _ hv => (eq_lowest_or_lt hv).elim (fun h => h.ge) le_of_lt⟩

/-- The highest version of a list is its greatest one. -/
theorem isGreatest_highest (l : VersionList) : IsGreatest {v | v ∈ l.versions} l.highest :=
  ⟨l.highest_mem, fun _ hv => (eq_highest_or_lt hv).elim (fun h => h.le) le_of_lt⟩

end VersionList

end InlineExpect
