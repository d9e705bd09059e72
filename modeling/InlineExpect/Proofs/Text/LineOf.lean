import Mathlib
import InlineExpect.Text.LineIndex

/-!
# The line of an offset

A line `Contains` an offset if it starts at the offset or before it and the next line, if there is
one, starts behind it.  The binary search `LineIndex.search` finds a line that contains its offset.
Since the lines of a text start at ascending offsets, there is no other such line, so that any other
way to find one agrees with the search (`LineIndex.lineOf_eq_ok_of_contains`).
-/

namespace InlineExpect

/-! ### Line starts ascend -/

namespace Text

/-- The lines that begin in some bytes start behind the first byte, one behind the other. -/
lemma isChain_startsAfter (pos : Nat) (bytes : List UInt8) :
    (pos :: startsAfter pos bytes).IsChain (· < ·) := by
  -- Where no line ends, the chain from the next offset on is cut down to start at this one.
  have skip : ∀ {pos : Nat} {ps : List Nat},
      ((pos + 1) :: ps).IsChain (· < ·) → (pos :: ps).IsChain (· < ·) :=
    fun h => h.imp_head fun hlt => Nat.lt_of_succ_lt hlt
  fun_induction startsAfter pos bytes with
  | case1 pos => exact .singleton pos
  | case2 pos rest ih => exact .cons_cons (by omega) ih
  | case3 pos => exact .cons_cons (by omega) (.singleton _)
  | case4 pos _ rest ih => exact .cons_cons (by omega) ih
  | case5 pos b rest _ _ ih => exact .cons_cons (by omega) ih
  | case6 pos b₁ b₂ rest _ _ _ ih => exact .cons_cons (by omega) ih
  | case7 pos b₁ b₂ rest _ _ _ ih => exact skip ih
  | case8 pos rest _ _ _ ih => exact skip ih
  | case9 pos b rest _ _ _ ih => exact skip ih

end Text

namespace LineIndex

/-- The size of the index of a text is the number of bytes of the text. -/
@[simp] theorem size_ofText (text : List Char) : (ofText text).size = Text.byteLength text :=
  Text.length_utf8 text

/-- The lines of a text start at ascending offsets. -/
lemma starts_lt_starts (text : List Char) {i j a b : Nat} (hij : i < j)
    (hi : (ofText text).starts[i]? = some a) (hj : (ofText text).starts[j]? = some b) : a < b := by
  have hsorted : (0 :: Text.startsAfter 0 (Text.utf8 text)).Pairwise (· < ·) :=
    List.isChain_iff_pairwise.mp (Text.isChain_startsAfter 0 _)
  simp only [ofText, List.getElem?_toArray] at hi hj
  obtain ⟨hilt, rfl⟩ := List.getElem?_eq_some_iff.mp hi
  obtain ⟨hjlt, rfl⟩ := List.getElem?_eq_some_iff.mp hj
  exact List.pairwise_iff_getElem.mp hsorted i j hilt hjlt hij

/-- The first line starts at offset zero. -/
lemma starts_zero (text : List Char) : (ofText text).starts[0]? = some 0 := by
  simp [ofText]

/-! ### The line that contains an offset -/

/-- A line contains an offset if it does not start behind it, but the next line does. -/
def Contains (index : LineIndex) (line pos : Nat) : Prop :=
  (∃ start, index.starts[line]? = some start ∧ start ≤ pos) ∧
    ∀ next, index.starts[line + 1]? = some next → pos < next

/-- The binary search finds a line that contains the offset, provided that the first line of its
range does not start behind the offset and the line after the range does. -/
lemma contains_search (index : LineIndex) (pos lo hi : Nat) (hlt : lo < hi)
    (hhi : hi ≤ index.lineCount)
    (hlo : ∃ start, index.starts[lo]? = some start ∧ start ≤ pos)
    (hnext : ∀ next, index.starts[hi]? = some next → pos < next) :
    index.Contains (search index.starts pos lo hi) pos := by
  fun_induction search index.starts pos lo hi with
  | case1 lo hi hlt' mid hmid ih =>
    have hm : mid < index.starts.size := by
      unfold lineCount at hhi
      omega
    have hget : index.starts[mid]? = some index.starts[mid] := Array.getElem?_eq_getElem hm
    rw [Array.getD_eq_getD_getElem?, hget, Option.getD_some] at hmid
    exact ih (by omega) hhi ⟨_, hget, hmid⟩ hnext
  | case2 lo hi hlt' mid hmid ih =>
    refine ih (by omega) (by omega) hlo fun next hget => ?_
    rw [Array.getD_eq_getD_getElem?, hget, Option.getD_some] at hmid
    omega
  | case3 lo hi hlt' =>
    obtain rfl : hi = lo + 1 := by omega
    exact ⟨hlo, hnext⟩

/-- A later offset of a text is not contained in an earlier line. -/
lemma Contains.le_of_le {text : List Char} {l m p q : Nat} (hl : (ofText text).Contains l p)
    (hm : (ofText text).Contains m q) (hpq : p ≤ q) : l ≤ m := by
  -- If the line `m` came first, the next line after it would start behind `q`.
  obtain ⟨⟨a, ha, hap⟩, -⟩ := hl
  obtain ⟨-, hnext⟩ := hm
  by_contra hlt
  have hml : m + 1 ≤ l := by omega
  have hsize : m + 1 < (ofText text).starts.size :=
    hml.trans_lt (Array.getElem?_eq_some_iff.mp ha).1
  have hget := Array.getElem?_eq_getElem hsize
  have hq := hnext _ hget
  rcases hml.eq_or_lt with rfl | hlt'
  · rw [hget] at ha
    have := Option.some.inj ha
    omega
  · have := starts_lt_starts text hlt' hget ha
    omega

/-- No two lines of a text contain the same offset. -/
lemma Contains.unique {text : List Char} {pos l m : Nat} (hl : (ofText text).Contains l pos)
    (hm : (ofText text).Contains m pos) : l = m :=
  le_antisymm (hl.le_of_le hm le_rfl) (hm.le_of_le hl le_rfl)

/-- An offset in a text is looked up without an error. -/
lemma exists_lineOf {index : LineIndex} {pos : Nat} (h : pos ≤ index.size) :
    ∃ line, index.lineOf pos = .ok line := by
  unfold lineOf
  rw [if_neg (not_lt.mpr h)]
  exact ⟨_, rfl⟩

/-- The line that is looked up for an offset contains it. -/
lemma contains_of_lineOf_eq_ok {text : List Char} {pos line : Nat}
    (h : (ofText text).lineOf pos = .ok line) : (ofText text).Contains line pos := by
  unfold lineOf at h
  split at h
  · simp at h
  · obtain rfl := Except.ok.inj h
    have hpos : 0 < (ofText text).lineCount := by simp [lineCount, ofText]
    refine contains_search _ _ _ _ hpos le_rfl ⟨0, starts_zero text, Nat.zero_le _⟩ ?_
    intro next hget
    rw [lineCount, Array.getElem?_eq_none le_rfl] at hget
    simp at hget

/-- The line that contains an offset of a text is the one that is looked up. -/
lemma lineOf_eq_ok_of_contains {text : List Char} {pos line : Nat}
    (hpos : pos ≤ Text.byteLength text) (h : (ofText text).Contains line pos) :
    (ofText text).lineOf pos = .ok line := by
  have hsize : pos ≤ (ofText text).size := by rwa [size_ofText]
  obtain ⟨l, hl⟩ := exists_lineOf hsize
  rw [hl, (contains_of_lineOf_eq_ok hl).unique h]

/-- The position of an offset in a text is found. -/
lemma exists_positionOf {index : LineIndex} {pos : Nat} (h : pos ≤ index.size) :
    ∃ position, index.positionOf pos = .ok position := by
  obtain ⟨line, hline⟩ := exists_lineOf h
  unfold positionOf
  rw [hline]
  exact ⟨_, rfl⟩

end LineIndex

end InlineExpect
