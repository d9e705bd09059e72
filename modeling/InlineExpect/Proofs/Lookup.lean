import Mathlib

/-!
# Looking up keys

What is found under a key in a list of pairs, where keys may come more than once and the first one
counts.
-/

namespace InlineExpect

variable {κ α : Type} [BEq κ] [LawfulBEq κ] {k : κ} {a : α} {ps : List (κ × α)}

/-- The first pair is found by its key, and other keys behind it. -/
lemma lookup_cons_eq_ite [DecidableEq κ] (k l : κ) (a : α) (ps : List (κ × α)) :
    ((l, a) :: ps).lookup k = if k = l then some a else ps.lookup k := by
  rw [List.lookup_cons]
  by_cases h : k = l
  · rw [if_pos h, beq_iff_eq.mpr h]
  · rw [if_neg h, beq_eq_false_iff_ne.mpr h]

/-- Where no key comes twice, every pair is found. -/
lemma lookup_eq_some_iff_mem (h : (ps.map Prod.fst).Nodup) :
    ps.lookup k = some a ↔ (k, a) ∈ ps := by
  classical
  induction ps with
  | nil => simp
  | cons p ps ih =>
    obtain ⟨l, b⟩ := p
    obtain ⟨hnotin, hnodup⟩ := List.nodup_cons.mp h
    rw [lookup_cons_eq_ite, List.mem_cons, Prod.mk.injEq]
    by_cases hkl : k = l
    · subst hkl
      have hnone : (k, a) ∉ ps := fun hmem => hnotin (List.mem_map.mpr ⟨_, hmem, rfl⟩)
      simp [hnone, eq_comm]
    · simp [hkl, ih hnodup]

end InlineExpect
