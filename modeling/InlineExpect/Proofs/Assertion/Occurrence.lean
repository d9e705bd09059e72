import Mathlib

/-!
# Counting occurrences

Two ways to read a list with repetitions, both by counting.  `once key` keeps the elements whose key
is the key of no other element, and `seconds` lists the repeated elements, each one once, in the
order of their second occurrences.  The lemmas named `concat` say what one more element at the end
changes, the others characterize the two lists without recursion.
-/

namespace InlineExpect

variable {α κ : Type}

/-! ### Elements that occur once -/

section Once

variable [DecidableEq κ] {key : α → κ} {xs : List α} {x : α} {k : κ}

/-- The elements whose key occurs once. -/
def once (key : α → κ) (xs : List α) : List α :=
  xs.filter fun x => (xs.map key).count (key x) = 1

/-- The keys of the elements whose key occurs once are the keys that occur once. -/
lemma mem_map_once_iff : k ∈ (once key xs).map key ↔ (xs.map key).count k = 1 := by
  constructor
  · intro h
    obtain ⟨x, hx, rfl⟩ := List.mem_map.mp h
    simpa using (List.mem_filter.mp hx).2
  · intro h
    have hmem : k ∈ xs.map key := List.count_pos_iff.mp (by omega)
    obtain ⟨x, hx, rfl⟩ := List.mem_map.mp hmem
    exact List.mem_map.mpr ⟨x, List.mem_filter.mpr ⟨hx, by simpa using h⟩, rfl⟩

/-- No two elements whose key occurs once have the same key. -/
lemma nodup_map_once : ((once key xs).map key).Nodup := by
  rw [List.nodup_iff_count_le_one]
  intro k
  by_cases hk : k ∈ (once key xs).map key
  · have hsub : ((once key xs).map key).Sublist (xs.map key) := List.filter_sublist.map key
    exact (hsub.count_le k).trans (mem_map_once_iff.mp hk).le
  · rw [List.count_eq_zero_of_not_mem hk]
    exact Nat.zero_le 1

/-- What counts for an element once another one has been added. -/
lemma count_map_concat (xs : List α) (x : α) (k : κ) :
    ((xs ++ [x]).map key).count k = (xs.map key).count k + if key x = k then 1 else 0 := by
  rw [List.map_append, List.count_append, List.map_singleton, List.count_singleton]
  simp only [beq_iff_eq]

/-- An element with a new key is added. -/
lemma once_concat_of_count_eq_zero (h : (xs.map key).count (key x) = 0) :
    once key (xs ++ [x]) = once key xs ++ [x] := by
  unfold once
  rw [List.filter_append]
  congr 1
  · refine List.filter_congr fun y hy => ?_
    have hne : key x ≠ key y := by
      intro he
      have : 0 < (xs.map key).count (key x) :=
        List.count_pos_iff.mpr (he ▸ List.mem_map_of_mem hy)
      omega
    rw [count_map_concat, if_neg hne, Nat.add_zero]
  · have hcount : ((xs ++ [x]).map key).count (key x) = 1 := by
      rw [count_map_concat, h, if_pos rfl]
    rw [List.filter_singleton, hcount]
    rfl

/-- An element with a known key is not added, and removes what had that key. -/
lemma once_concat_of_count_pos (h : 0 < (xs.map key).count (key x)) :
    once key (xs ++ [x]) = (once key xs).filter fun y => key y != key x := by
  unfold once
  rw [List.filter_append, List.filter_filter]
  have hlast : [x].filter
      (fun y => decide (((xs ++ [x]).map key).count (key y) = 1)) = [] := by
    rw [List.filter_singleton, count_map_concat, if_pos rfl]
    simp [h.ne']
  rw [hlast, List.append_nil]
  refine List.filter_congr fun y hy => ?_
  rw [count_map_concat]
  by_cases he : key x = key y
  · have : 0 < (xs.map key).count (key y) := he ▸ h
    simp [he, this.ne']
  · simp [he, Ne.symm he]

/-- An element with a repeated key changes nothing. -/
lemma once_concat_of_two_le_count (h : 2 ≤ (xs.map key).count (key x)) :
    once key (xs ++ [x]) = once key xs := by
  rw [once_concat_of_count_pos (by omega)]
  refine List.filter_eq_self.mpr fun y hy => ?_
  rw [bne_iff_ne]
  intro he
  have := mem_map_once_iff.mp (List.mem_map_of_mem (f := key) hy)
  rw [he] at this
  omega

/-- Where no two elements have the same key, all elements are kept. -/
lemma once_eq_self (h : (xs.map key).Nodup) : once key xs = xs := by
  refine List.filter_eq_self.mpr fun x hx => ?_
  rw [decide_eq_true_eq]
  exact List.count_eq_one_of_mem h (List.mem_map_of_mem hx)

end Once

/-! ### Second occurrences -/

section Seconds

variable [DecidableEq α] {xs : List α} {x d : α}

/-- The elements of a list that are second occurrences, where some elements have been read. -/
def secondsFrom (read : List α) : List α → List α
  | [] => []
  | x :: xs =>
    if read.count x = 1 then x :: secondsFrom (read ++ [x]) xs else secondsFrom (read ++ [x]) xs

/-- The repeated elements of a list, in the order of their second occurrences. -/
def seconds (xs : List α) : List α := secondsFrom [] xs

/-- The position at which an element occurs for the second time. -/
def secondPosition (xs : List α) (d : α) : Nat := (xs.idxsOf d).getD 1 0

/-- One more element is a second occurrence if it has occurred once. -/
lemma secondsFrom_concat (read xs : List α) (x : α) :
    secondsFrom read (xs ++ [x]) =
      secondsFrom read xs ++ if (read ++ xs).count x = 1 then [x] else [] := by
  induction xs generalizing read with
  | nil =>
    rw [List.nil_append, List.append_nil, secondsFrom, secondsFrom, secondsFrom]
    rfl
  | cons y ys ih =>
    rw [List.cons_append, secondsFrom, secondsFrom, ih, List.append_assoc, List.singleton_append]
    split <;> rfl

/-- One more element is a second occurrence if it has occurred once. -/
lemma seconds_concat (xs : List α) (x : α) :
    seconds (xs ++ [x]) = seconds xs ++ if xs.count x = 1 then [x] else [] :=
  secondsFrom_concat [] xs x

/-- The repeated elements of a list stand in it in their order. -/
lemma seconds_sublist (xs : List α) : (seconds xs).Sublist xs := by
  induction xs using List.reverseRecOn with
  | nil => exact .refl _
  | append_singleton xs x ih =>
    rw [seconds_concat]
    refine ih.append ?_
    split
    · exact .refl _
    · exact List.nil_sublist _

/-- The elements with a second occurrence are those that occur twice or more often. -/
lemma mem_seconds_iff : d ∈ seconds xs ↔ 2 ≤ xs.count d := by
  induction xs using List.reverseRecOn with
  | nil => simp [seconds, secondsFrom]
  | append_singleton xs x ih =>
    rw [seconds_concat, List.mem_append, ih, List.count_append, List.count_singleton]
    by_cases hx : x = d
    · subst hx
      by_cases hc : xs.count x = 1
      · simp [hc]
      · simp only [hc, if_false, List.not_mem_nil, or_false, beq_self_eq_true, if_true]
        omega
    · have hne : (x == d) = false := beq_false_of_ne hx
      rw [hne]
      split <;> simp [Ne.symm hx]

/-- Nothing is repeated in a list without repetitions. -/
lemma seconds_eq_nil (h : xs.Nodup) : seconds xs = [] := by
  refine List.eq_nil_iff_forall_not_mem.mpr fun d hd => ?_
  have htwo := mem_seconds_iff.mp hd
  have hone := List.nodup_iff_count_le_one.mp h d
  omega

/-- No element has two second occurrences. -/
lemma nodup_seconds (xs : List α) : (seconds xs).Nodup := by
  induction xs using List.reverseRecOn with
  | nil => exact List.nodup_nil
  | append_singleton xs x ih =>
    rw [seconds_concat]
    split
    · rename_i hc
      rw [← List.concat_eq_append]
      refine List.Nodup.concat (fun hmem => ?_) ih
      have := mem_seconds_iff.mp hmem
      omega
    · rwa [List.append_nil]

/-- A second occurrence is not moved by what follows. -/
lemma secondPosition_concat_of_two_le (h : 2 ≤ xs.count d) (x : α) :
    secondPosition (xs ++ [x]) d = secondPosition xs d := by
  have hlen : 1 < (xs.idxsOf d).length := by rwa [List.length_idxsOf]
  unfold secondPosition
  rw [List.idxsOf_append, List.getD_append _ _ _ _ hlen]

/-- A second occurrence is in the list. -/
lemma secondPosition_lt (h : 2 ≤ xs.count d) : secondPosition xs d < xs.length := by
  have hlen : 1 < (xs.idxsOf d).length := by rwa [List.length_idxsOf]
  unfold secondPosition
  rw [List.getD_eq_getElem _ _ hlen]
  exact List.getElem_idxsOf_lt hlen

/-- The last element is a second occurrence if it has occurred once. -/
lemma secondPosition_concat_self (h : xs.count x = 1) :
    secondPosition (xs ++ [x]) x = xs.length := by
  have hlen : (xs.idxsOf x).length = 1 := by rwa [List.length_idxsOf]
  unfold secondPosition
  rw [List.idxsOf_append, List.getD_append_right _ _ _ _ hlen.le, hlen]
  simp

/-- The repeated elements stand in the order of their second occurrences. -/
lemma pairwise_seconds (xs : List α) :
    (seconds xs).Pairwise fun d e => secondPosition xs d < secondPosition xs e := by
  induction xs using List.reverseRecOn with
  | nil => exact .nil
  | append_singleton xs x ih =>
    have hold : (seconds xs).Pairwise fun d e =>
        secondPosition (xs ++ [x]) d < secondPosition (xs ++ [x]) e := by
      refine ih.imp_of_mem fun hd he hlt => ?_
      rwa [secondPosition_concat_of_two_le (mem_seconds_iff.mp hd),
        secondPosition_concat_of_two_le (mem_seconds_iff.mp he)]
    rw [seconds_concat]
    split
    · rename_i hc
      refine List.pairwise_append.mpr ⟨hold, List.pairwise_singleton _ _, fun d hd e he => ?_⟩
      have hd := mem_seconds_iff.mp hd
      rw [List.mem_singleton.mp he, secondPosition_concat_self hc,
        secondPosition_concat_of_two_le hd]
      exact secondPosition_lt hd
    · rwa [List.append_nil]

end Seconds

end InlineExpect
