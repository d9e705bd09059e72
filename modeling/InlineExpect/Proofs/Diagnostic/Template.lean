import Mathlib
import InlineExpect.Diagnostic.Template

/-!
# Filling templates

To replace a pattern is to cut a text at the occurrences of the pattern and to join the parts with
the replacement (`Template.exists_parts`).  So a text stays as it is exactly if the pattern does not
occur in it, or is replaced by itself (`Template.replaceAll_eq_self_iff`).

The places of a template are filled one after the other, and what an argument brings in is text when
the next place is filled.  A character that no place has in it keeps the argument apart from the
rest of the template: what stands before it and what stands behind it are filled on their own
(`Template.replaceAll_append_cons`).
-/

namespace InlineExpect.Template

variable {p r cs ds : List Char} {c d : Char}

/-! ### Parts of a text -/

/-- The first part of a text that is joined can be extended to the left. -/
lemma intercalate_cons_left (r : List Char) (c : Char) (part : List Char)
    (parts : List (List Char)) :
    r.intercalate ((c :: part) :: parts) = c :: r.intercalate (part :: parts) := by
  cases parts with
  | nil => rw [List.intercalate_singleton, List.intercalate_singleton]
  | cons q qs =>
    rw [List.intercalate_cons_cons, List.intercalate_cons_cons, List.append_assoc,
      List.append_assoc, List.cons_append]

/-- A joined text begins with its first part. -/
lemma prefix_intercalate (r part : List Char) (parts : List (List Char)) :
    part <+: r.intercalate (part :: parts) := by
  cases parts with
  | nil => rw [List.intercalate_singleton]
  | cons q qs =>
    rw [List.intercalate_cons_cons, List.append_assoc]
    exact List.prefix_append _ _

/-- A joined text has the characters of its parts, and those of what stands between them. -/
lemma length_intercalate (r part : List Char) (parts : List (List Char)) :
    (r.intercalate (part :: parts)).length =
      ((part :: parts).map List.length).sum + parts.length * r.length := by
  induction parts generalizing part with
  | nil => simp
  | cons q qs ih =>
    rw [List.intercalate_cons_cons, List.length_append, List.length_append, ih]
    simp only [List.map_cons, List.sum_cons, List.length_cons, Nat.add_mul, Nat.one_mul]
    omega

/-- At an occurrence of the pattern the replacement begins. -/
lemma replaceAll_of_starts (h : p <+: c :: cs) (r : List Char) :
    replaceAll p r (c :: cs) = r ++ replaceAll p r (cs.drop (p.length - 1)) := by
  rw [replaceAll, if_pos (List.isPrefixOf_iff_prefix.mpr h)]

/-- Elsewhere a character stays. -/
lemma replaceAll_of_not_starts (h : ¬ p <+: c :: cs) (r : List Char) :
    replaceAll p r (c :: cs) = c :: replaceAll p r cs := by
  rw [replaceAll, if_neg fun hp => h (List.isPrefixOf_iff_prefix.mp hp)]

/-- A pattern at the start of a text is followed by what is left behind it. -/
lemma append_drop_of_starts (hp : p ≠ []) (h : p <+: c :: cs) :
    p ++ cs.drop (p.length - 1) = c :: cs := by
  obtain ⟨a, as, rfl⟩ := List.exists_cons_of_ne_nil hp
  obtain ⟨rfl, rest, rfl⟩ := List.cons_prefix_cons.mp h
  rw [List.length_cons, Nat.add_sub_cancel, List.drop_left, List.cons_append]

/-- A text falls into parts in which the pattern does not occur, with the pattern between them.  To
replace the pattern is to join the parts with the replacement. -/
theorem exists_parts (hp : p ≠ []) (cs : List Char) :
    ∃ part parts, cs = p.intercalate (part :: parts) ∧ (∀ q ∈ part :: parts, ¬ p <:+: q) ∧
      ∀ r, replaceAll p r cs = r.intercalate (part :: parts) := by
  match cs with
  | [] =>
    refine ⟨[], [], rfl, ?_, fun r => replaceAll_nil p r⟩
    simpa using hp
  | c :: cs =>
    by_cases hstarts : p <+: c :: cs
    · obtain ⟨part, parts, hcs, hfree, hreplace⟩ := exists_parts hp (cs.drop (p.length - 1))
      refine ⟨[], part :: parts, ?_, ?_, fun r => ?_⟩
      · rw [List.intercalate_cons_cons, ← hcs, List.nil_append, append_drop_of_starts hp hstarts]
      · exact List.forall_mem_cons.mpr ⟨by simpa using hp, hfree⟩
      · rw [replaceAll_of_starts hstarts, hreplace, List.intercalate_cons_cons, List.nil_append]
    · obtain ⟨part, parts, hcs, hfree, hreplace⟩ := exists_parts hp cs
      refine ⟨c :: part, parts, ?_, ?_, fun r => ?_⟩
      · rw [intercalate_cons_left, ← hcs]
      · obtain ⟨hpart, hparts⟩ := List.forall_mem_cons.mp hfree
        refine List.forall_mem_cons.mpr ⟨fun hoccurs => ?_, hparts⟩
        rcases List.infix_cons_iff.mp hoccurs with hoccurs | hoccurs
        · have hfront : c :: part <+: c :: cs := by
            rw [hcs]
            exact List.cons_prefix_cons.mpr ⟨rfl, prefix_intercalate p part parts⟩
          exact hstarts (hoccurs.trans hfront)
        · exact hpart hoccurs
      · rw [replaceAll_of_not_starts hstarts, hreplace, intercalate_cons_left]
termination_by cs.length
decreasing_by all_goals (simp only [List.length_cons, List.length_drop]; omega)

/-- A text stays as it is exactly if the pattern does not occur in it, or is replaced by itself. -/
theorem replaceAll_eq_self_iff (hp : p ≠ []) :
    replaceAll p r cs = cs ↔ ¬ p <:+: cs ∨ r = p := by
  obtain ⟨part, parts, hcs, hfree, hreplace⟩ := exists_parts hp cs
  rw [hreplace]
  cases parts with
  | nil =>
    rw [List.intercalate_singleton] at hcs ⊢
    subst hcs
    exact iff_of_true rfl (.inl (hfree cs List.mem_cons_self))
  | cons q qs =>
    rw [List.intercalate_cons_cons] at hcs
    have hoccurs : p <:+: cs := ⟨part, p.intercalate (q :: qs), hcs.symm⟩
    rw [or_iff_right (not_not_intro hoccurs)]
    constructor
    · intro h
      rw [hcs, List.intercalate_cons_cons] at h
      -- Both sides have the same parts, so that the pattern and the replacement are equally long.
      have hlength := congrArg List.length h
      simp only [List.length_append, length_intercalate] at hlength
      have hsame : r.length = p.length := by
        refine Nat.eq_of_mul_eq_mul_left (Nat.succ_pos qs.length) ?_
        rw [Nat.succ_mul, Nat.succ_mul]
        omega
      rw [List.append_assoc, List.append_assoc] at h
      exact (List.append_inj (List.append_cancel_left h) hsame).1
    · rintro rfl
      rw [hcs, List.intercalate_cons_cons]

lemma replaceAll_eq_self (hp : p ≠ []) (h : ¬ p <:+: cs) (r : List Char) :
    replaceAll p r cs = cs :=
  (replaceAll_eq_self_iff hp).mpr (.inl h)

/-- The pattern itself is replaced. -/
lemma replaceAll_self (hp : p ≠ []) (r : List Char) : replaceAll p r p = r := by
  obtain ⟨c, cs, rfl⟩ := List.exists_cons_of_ne_nil hp
  rw [replaceAll_of_starts (List.prefix_refl _), List.length_cons, Nat.add_sub_cancel,
    List.drop_length, replaceAll_nil, List.append_nil]

/-! ### Separators -/

/-- A pattern that stands before a character which it does not have ends there. -/
lemma prefix_append_cons_iff (hc : c ∉ p) : p <+: cs ++ c :: ds ↔ p <+: cs := by
  induction cs generalizing p with
  | nil =>
    cases p with
    | nil => simp
    | cons a as =>
      rw [List.nil_append, List.cons_prefix_cons]
      refine iff_of_false ?_ (by simp)
      rintro ⟨rfl, -⟩
      exact hc List.mem_cons_self
  | cons d cs ih =>
    cases p with
    | nil => simp
    | cons a as =>
      rw [List.cons_append, List.cons_prefix_cons, List.cons_prefix_cons,
        ih fun hmem => hc (List.mem_cons_of_mem a hmem)]

/-- What stands before a character that the pattern does not have, and what stands behind it, are
replaced on their own. -/
theorem replaceAll_append_cons (hp : p ≠ []) (hc : c ∉ p) (r cs ds : List Char) :
    replaceAll p r (cs ++ c :: ds) = replaceAll p r cs ++ c :: replaceAll p r ds := by
  match cs with
  | [] =>
    have hnot : ¬ p <+: c :: ds := by
      rw [← List.nil_append (c :: ds), prefix_append_cons_iff hc]
      simpa using hp
    rw [List.nil_append, replaceAll_of_not_starts hnot, replaceAll_nil, List.nil_append]
  | d :: cs =>
    have hiff : p <+: d :: (cs ++ c :: ds) ↔ p <+: d :: cs := by
      rw [← List.cons_append, prefix_append_cons_iff hc]
    rw [List.cons_append]
    by_cases hstarts : p <+: d :: cs
    · have hle : p.length - 1 ≤ cs.length := by
        have hlength := hstarts.length_le
        rw [List.length_cons] at hlength
        omega
      rw [replaceAll_of_starts hstarts, replaceAll_of_starts (hiff.mpr hstarts),
        List.drop_append_of_le_length hle, replaceAll_append_cons hp hc r _ ds, List.append_assoc]
    · rw [replaceAll_of_not_starts hstarts, replaceAll_of_not_starts (mt hiff.mp hstarts),
        replaceAll_append_cons hp hc r cs ds, List.cons_append]
termination_by cs.length
decreasing_by all_goals (simp only [List.length_cons, List.length_drop]; omega)

/-- A place at the end of a text is filled, if it occurs nowhere else. -/
lemma replaceAll_place_end (hp : p ≠ []) (hfront : ¬ p <:+: cs) (hc : c ∉ p) (r : List Char) :
    replaceAll p r (cs ++ c :: p) = cs ++ c :: r := by
  rw [replaceAll_append_cons hp hc, replaceAll_eq_self hp hfront, replaceAll_self hp]

/-- A place inside of a text is filled, if it does not occur in front of it. -/
lemma replaceAll_place (hp : p ≠ []) (hfront : ¬ p <:+: cs) (hc : c ∉ p) (hd : d ∉ p)
    (r ds : List Char) :
    replaceAll p r (cs ++ c :: (p ++ d :: ds)) = cs ++ c :: (r ++ d :: replaceAll p r ds) := by
  rw [replaceAll_append_cons hp hc, replaceAll_append_cons hp hd, replaceAll_eq_self hp hfront,
    replaceAll_self hp]

end InlineExpect.Template
