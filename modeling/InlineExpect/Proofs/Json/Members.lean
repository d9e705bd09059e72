import Mathlib
import InlineExpect.Json.Value
import InlineExpect.Proofs.Lookup

/-!
# Members by name

An object is read as a map by putting its members one by one into a list in ascending order of
names.  What the list holds under a name is the last member of that name
(`lookup_distinctMembers`), and since a list in ascending order is determined by what it holds
(`Ascending.ext`), the members of a map come out as they were put in
(`Ascending.distinctMembers_eq`).
-/

namespace InlineExpect.Json

variable {α : Type} {name : String} {a : α} {ms ms' : List (String × α)}

/-- The names of members ascend, so that no two are the same. -/
def Ascending (ms : List (String × α)) : Prop := (ms.map Prod.fst).Pairwise (· < ·)

/-- The value of the last member of a name. -/
def last? (name : String) (ms : List (String × α)) : Option α := ms.reverse.lookup name

/-! ### Finding members -/

/-- The last member of a name is the one at the end, or else one before it. -/
lemma last?_concat (name n : String) (a : α) (ms : List (String × α)) :
    last? name (ms ++ [(n, a)]) = if name = n then some a else last? name ms := by
  rw [last?, List.reverse_concat, lookup_cons_eq_ite]
  rfl

/-- What is found among members with certain names. -/
lemma lookup_filter_fst (p : String → Bool) (name : String) (ms : List (String × α)) :
    (ms.filter fun m => p m.1).lookup name = if p name then ms.lookup name else none := by
  induction ms with
  | nil => simp
  | cons m ms ih =>
    obtain ⟨n, b⟩ := m
    rw [lookup_cons_eq_ite, List.filter_cons]
    by_cases hname : name = n
    · subst hname
      by_cases hp : p name = true
      · rw [if_pos hp, lookup_cons_eq_ite, if_pos rfl, if_pos hp, if_pos rfl]
      · rw [if_neg hp, ih, if_neg hp, if_neg hp]
    · rw [if_neg hname, ← ih]
      by_cases hp : p n = true
      · rw [if_pos hp, lookup_cons_eq_ite, if_neg hname]
      · rw [if_neg hp]

/-- The last member of a name among members with certain names. -/
lemma last?_filter_fst (p : String → Bool) (name : String) (ms : List (String × α)) :
    last? name (ms.filter fun m => p m.1) = if p name then last? name ms else none := by
  rw [last?, ← List.filter_reverse]
  exact lookup_filter_fst p name ms.reverse

/-- Where no name comes twice, the only member of a name is the last one. -/
lemma last?_eq_lookup_of_nodup (h : (ms.map Prod.fst).Nodup) (name : String) :
    last? name ms = ms.lookup name := by
  have hreverse : (ms.reverse.map Prod.fst).Nodup := by
    rw [List.map_reverse]
    exact List.nodup_reverse.mpr h
  refine Option.ext fun a => ?_
  rw [last?, lookup_eq_some_iff_mem h, lookup_eq_some_iff_mem hreverse,
    List.mem_reverse]

/-- The right ones of related things have what they are related by. -/
lemma forall_right_of_forall₂ {α β : Type} {R : α → β → Prop} {p : β → Prop} {xs : List α}
    {ys : List β} (h : List.Forall₂ R xs ys) (hp : ∀ x y, R x y → p y) : ∀ y ∈ ys, p y := by
  induction h with
  | nil => exact List.forall_mem_nil p
  | cons hxy h ih => exact List.forall_mem_cons.mpr ⟨hp _ _ hxy, ih⟩

/-- Related things stand at the same places. -/
lemma rel_getElem?_of_forall₂ {α β : Type} {R : α → β → Prop} {xs : List α} {ys : List β}
    (h : List.Forall₂ R xs ys) (i : Nat) : Option.Rel R xs[i]? ys[i]? := by
  induction h generalizing i with
  | nil => exact .none
  | cons hxy h ih =>
    cases i with
    | zero => exact .some hxy
    | succ i => exact ih i

/-- Members whose values are related, under the same names. -/
def SameNames {β : Type} (R : α → β → Prop) : List (String × α) → List (String × β) → Prop :=
  List.Forall₂ fun m m' => m.1 = m'.1 ∧ R m.2 m'.2

namespace SameNames

variable {β : Type} {R : α → β → Prop} {ns : List (String × β)}

/-- The names are the same. -/
lemma map_fst_eq (h : SameNames R ms ns) : ms.map Prod.fst = ns.map Prod.fst := by
  induction h with
  | nil => rfl
  | cons hm hms ih => rw [List.map_cons, List.map_cons, hm.1, ih]

/-- What is found under a name is related. -/
lemma lookup (h : SameNames R ms ns) (name : String) :
    Option.Rel R (ms.lookup name) (ns.lookup name) := by
  induction h with
  | nil => exact .none
  | @cons m m' ms ns hm hms ih =>
    obtain ⟨n, a⟩ := m
    obtain ⟨n', b⟩ := m'
    obtain ⟨rfl, hab⟩ := hm
    rw [lookup_cons_eq_ite, lookup_cons_eq_ite]
    by_cases hname : name = n
    · rw [if_pos hname, if_pos hname]
      exact .some hab
    · rw [if_neg hname, if_neg hname]
      exact ih

/-- The last members of a name are related. -/
lemma last? (h : SameNames R ms ns) (name : String) :
    Option.Rel R (last? name ms) (Json.last? name ns) :=
  SameNames.lookup (List.rel_reverse h) name

end SameNames

/-! ### Members in ascending order -/

namespace Ascending

lemma nil : Ascending ([] : List (String × α)) := List.Pairwise.nil

/-- No name comes twice. -/
lemma nodup (h : Ascending ms) : (ms.map Prod.fst).Nodup := h.imp fun hlt => hlt.ne

/-- Members in ascending order are determined by what is found under the names. -/
theorem ext (h : Ascending ms) (h' : Ascending ms')
    (hlookup : ∀ name, ms.lookup name = ms'.lookup name) : ms = ms' := by
  have hmem : ∀ m, m ∈ ms ↔ m ∈ ms' := by
    rintro ⟨n, a⟩
    rw [← lookup_eq_some_iff_mem h.nodup, hlookup,
      lookup_eq_some_iff_mem h'.nodup]
  have hperm : ms.Perm ms' :=
    (List.perm_ext_iff_of_nodup h.nodup.of_map h'.nodup.of_map).mpr hmem
  refine List.Perm.eq_of_pairwise (fun m m' _ _ hlt hgt => ?_) (List.pairwise_map.mp h)
    (List.pairwise_map.mp h') hperm
  exact absurd hlt (lt_asymm hgt)

/-- Members stay in order when one is put among them. -/
lemma insertMember (h : Ascending ms) (name : String) (a : α) :
    Ascending (insertMember name a ms) := by
  induction ms with
  | nil => exact List.pairwise_singleton _ _
  | cons m ms ih =>
    obtain ⟨n, b⟩ := m
    obtain ⟨hhead, htail⟩ := List.pairwise_cons.mp h
    unfold Json.insertMember
    split
    · rename_i hlt
      refine List.pairwise_cons.mpr ⟨fun n' hn' => ?_, h⟩
      rcases List.mem_cons.mp hn' with rfl | hn'
      · exact hlt
      · exact hlt.trans (hhead n' hn')
    · split
      · rename_i heq
        subst heq
        exact List.pairwise_cons.mpr ⟨hhead, htail⟩
      · rename_i hlt hne
        have hgt : n < name := lt_of_le_of_ne (not_lt.mp hlt) (Ne.symm hne)
        refine List.pairwise_cons.mpr ⟨fun n' hn' => ?_, ih htail⟩
        obtain ⟨m', hm', rfl⟩ := List.mem_map.mp hn'
        rcases mem_insertMember hm' with rfl | hm'
        · exact hgt
        · exact hhead _ (List.mem_map_of_mem hm')

end Ascending

/-- A member that is put among others is found, and the others of other names are. -/
lemma lookup_insertMember (name n : String) (a : α) (ms : List (String × α)) :
    (insertMember n a ms).lookup name = if name = n then some a else ms.lookup name := by
  induction ms with
  | nil => exact lookup_cons_eq_ite name n a []
  | cons m ms ih =>
    obtain ⟨n', b⟩ := m
    unfold insertMember
    split
    · exact lookup_cons_eq_ite name n a _
    · split
      · rename_i heq
        subst heq
        rw [lookup_cons_eq_ite, lookup_cons_eq_ite]
        by_cases h : name = n
        · rw [if_pos h, if_pos h]
        · rw [if_neg h, if_neg h, if_neg h]
      · rename_i hne
        rw [lookup_cons_eq_ite, lookup_cons_eq_ite, ih]
        by_cases h : name = n'
        · rw [if_pos h, if_pos h, if_neg (h ▸ Ne.symm hne)]
        · rw [if_neg h, if_neg h]

/-! ### Members as a map -/

/-- Members are put in one after the other. -/
lemma distinctMembers_concat (m : String × α) (ms : List (String × α)) :
    distinctMembers (ms ++ [m]) = insertMember m.1 m.2 (distinctMembers ms) :=
  List.foldl_concat _ _ _ _

/-- The members of a map are among those that were put in. -/
lemma mem_of_mem_distinctMembers {m : String × α} (h : m ∈ distinctMembers ms) : m ∈ ms := by
  induction ms using List.reverseRecOn with
  | nil => exact h
  | append_singleton ms m' ih =>
    rw [distinctMembers_concat] at h
    rcases mem_insertMember h with rfl | h
    · exact List.mem_append_right _ List.mem_cons_self
    · exact List.mem_append_left _ (ih h)

/-- The members of a map are in ascending order. -/
theorem ascending_distinctMembers (ms : List (String × α)) : Ascending (distinctMembers ms) := by
  induction ms using List.reverseRecOn with
  | nil => exact Ascending.nil
  | append_singleton ms m ih =>
    rw [distinctMembers_concat]
    exact ih.insertMember m.1 m.2

/-- The last member of a name counts. -/
theorem lookup_distinctMembers (name : String) (ms : List (String × α)) :
    (distinctMembers ms).lookup name = last? name ms := by
  induction ms using List.reverseRecOn with
  | nil => rfl
  | append_singleton ms m ih => rw [distinctMembers_concat, lookup_insertMember, last?_concat, ih]

/-- Members in ascending order are those of a map. -/
theorem Ascending.distinctMembers_eq (h : Ascending ms) : distinctMembers ms = ms := by
  refine (ascending_distinctMembers ms).ext h fun name => ?_
  rw [lookup_distinctMembers, last?_eq_lookup_of_nodup h.nodup]

end InlineExpect.Json
