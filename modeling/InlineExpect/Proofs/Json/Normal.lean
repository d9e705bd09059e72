import Mathlib
import InlineExpect.Json.Decode
import InlineExpect.Proofs.Json.Members

/-!
# Values that are kept

A value of unknown type is kept in a normal form, in which each object is a map (`Value.Normal`).
The normal form says the same as the value: it looks the same from wherever one goes into it by the
numbers of items and by the names of members, of which the last one counts
(`Value.SameContent`).  There is no other normal form that does (`Value.Normal.eq_of_sameContent`),
and a value that is in normal form is kept as it is (`Value.Normal.keep?_eq`).
-/

namespace InlineExpect.Json.Value

/-! ### Normal forms -/

/-- A value without parts. -/
inductive Leaf : Value → Prop
  | null : Leaf .null
  | bool (b : Bool) : Leaf (.bool b)
  | number (n : Number) : Leaf (.number n)
  | string (s : String) : Leaf (.string s)

/-- A value without unreadable parts, in which the names of each object ascend. -/
inductive Normal : Value → Prop
  | leaf {v : Value} (h : v.Leaf) : Normal v
  | array {items : List Value} (h : ∀ v ∈ items, Normal v) : Normal (.array items)
  | object {members : List (String × Value)} (hasc : Ascending members)
      (h : ∀ m ∈ members, Normal m.2) : Normal (.object members)

variable {depth : Nat} {v w : Value} {items items' : List Value}
  {members members' : List (String × Value)}

/-- Values are no higher than some bound if each of them is. -/
lemma heightItems_le_iff : heightItems items ≤ depth ↔ ∀ v ∈ items, v.height ≤ depth := by
  induction items with
  | nil => simp [heightItems]
  | cons v items ih => rw [heightItems, max_le_iff, ih, List.forall_mem_cons]

/-- The values of members are no higher than some bound if each of them is. -/
lemma heightMembers_le_iff :
    heightMembers members ≤ depth ↔ ∀ m ∈ members, m.2.height ≤ depth := by
  induction members with
  | nil => simp [heightMembers]
  | cons m members ih => rw [heightMembers, max_le_iff, ih, List.forall_mem_cons]

/-- Items are kept one by one. -/
lemma keepItems?_eq_some_iff :
    keepItems? depth items = some items' ↔
      List.Forall₂ (fun v w => v.keep? depth = some w) items items' := by
  induction items generalizing items' with
  | nil => simp [keepItems?, eq_comm]
  | cons v items ih =>
    rw [List.forall₂_cons_left_iff]
    simp only [keepItems?, Option.bind_eq_bind, Option.bind_eq_some_iff, Option.pure_def,
      Option.some.injEq, ih]
    constructor
    · rintro ⟨w, hw, ws, hws, rfl⟩
      exact ⟨w, ws, hw, hws, rfl⟩
    · rintro ⟨w, ws, hw, hws, rfl⟩
      exact ⟨w, hw, ws, hws, rfl⟩

/-- Members are kept one by one, under their names. -/
lemma keepMembers?_eq_some_iff :
    keepMembers? depth members = some members' ↔
      SameNames (fun v w => v.keep? depth = some w) members members' := by
  induction members generalizing members' with
  | nil => simp [keepMembers?, SameNames, eq_comm]
  | cons m members ih =>
    obtain ⟨name, v⟩ := m
    rw [SameNames, List.forall₂_cons_left_iff]
    simp only [keepMembers?, Option.bind_eq_bind, Option.bind_eq_some_iff, Option.pure_def,
      Option.some.injEq, ih]
    constructor
    · rintro ⟨w, hw, ms, hms, rfl⟩
      exact ⟨(name, w), ms, ⟨rfl, hw⟩, hms, rfl⟩
    · rintro ⟨⟨name', w⟩, ms, ⟨rfl, hw⟩, hms, rfl⟩
      exact ⟨w, hw, ms, hms, rfl⟩

/-- Members whose values are kept as they are are kept as they are. -/
lemma keepMembers?_eq_self (h : ∀ m ∈ members, m.2.keep? depth = some m.2) :
    keepMembers? depth members = some members :=
  keepMembers?_eq_some_iff.mpr (List.forall₂_same.mpr fun m hm => ⟨rfl, h m hm⟩)

/-- The ways in which a value is kept, given how its parts are. -/
inductive Kept (depth : Nat) : Value → Value → Prop
  | leaf {v : Value} (h : v.Leaf) : Kept depth v v
  | array {d : Nat} {items items' : List Value} (hdepth : depth = d + 1)
      (h : List.Forall₂ (fun v w => v.keep? d = some w) items items') :
      Kept depth (.array items) (.array items')
  | object {d : Nat} {members members' : List (String × Value)} (hdepth : depth = d + 1)
      (h : SameNames (fun v w => v.keep? d = some w) members members') :
      Kept depth (.object members) (.object (distinctMembers members'))

/-- A leaf is kept. -/
lemma Leaf.keep?_eq (h : v.Leaf) (depth : Nat) : v.keep? depth = some v := by
  cases h <;> cases depth <;> rfl

/-- A leaf has no height. -/
lemma Leaf.height_eq (h : v.Leaf) : v.height = 0 := by
  cases h <;> rfl

/-- A value is kept in one of these ways. -/
theorem kept_of_keep? (h : v.keep? depth = some w) : Kept depth v w := by
  have hleaf : v.Leaf → Kept depth v w := by
    intro hv
    rw [hv.keep?_eq depth] at h
    exact Option.some.inj h ▸ .leaf hv
  cases v with
  | null => exact hleaf .null
  | bool b => exact hleaf (.bool b)
  | number n => exact hleaf (.number n)
  | string s => exact hleaf (.string s)
  | unreadable => cases depth <;> cases h
  | array items =>
    cases depth with
    | zero => cases h
    | succ d =>
      obtain ⟨items', hitems, rfl⟩ := Option.map_eq_some_iff.mp h
      exact .array rfl (keepItems?_eq_some_iff.mp hitems)
  | object members =>
    cases depth with
    | zero => cases h
    | succ d =>
      obtain ⟨members', hmembers, rfl⟩ := Option.map_eq_some_iff.mp h
      exact .object rfl (keepMembers?_eq_some_iff.mp hmembers)

/-- What is kept is in normal form, and no deeper than the values that are kept may be. -/
theorem normal_of_keep? (h : v.keep? depth = some w) : w.Normal ∧ w.height ≤ depth := by
  induction depth using Nat.strong_induction_on generalizing v w with
  | h depth ih =>
    cases kept_of_keep? h with
    | leaf hv => exact ⟨.leaf hv, hv.height_eq ▸ Nat.zero_le _⟩
    | @array d items items' hdepth hitems =>
      subst hdepth
      have hparts := forall_right_of_forall₂ hitems fun _ _ => ih d (Nat.lt_succ_self d)
      refine ⟨.array fun v hv => (hparts v hv).1, ?_⟩
      rw [height, Nat.add_comm]
      exact Nat.succ_le_succ (heightItems_le_iff.mpr fun v hv => (hparts v hv).2)
    | @object d members members' hdepth hmembers =>
      subst hdepth
      have hparts : ∀ m ∈ distinctMembers members', m.2.Normal ∧ m.2.height ≤ d := fun m hm =>
        forall_right_of_forall₂ hmembers (fun _ _ hkeep => ih d (Nat.lt_succ_self d) hkeep.2) m
          (mem_of_mem_distinctMembers hm)
      refine ⟨.object (ascending_distinctMembers members') fun m hm => (hparts m hm).1, ?_⟩
      rw [height, Nat.add_comm]
      exact Nat.succ_le_succ (heightMembers_le_iff.mpr fun m hm => (hparts m hm).2)

/-- Normal forms are kept as they are. -/
theorem Normal.keep?_eq (h : v.Normal) (hheight : v.height ≤ depth) : v.keep? depth = some v := by
  induction h generalizing depth with
  | leaf hv => exact hv.keep?_eq depth
  | @array items h ih =>
    rw [height] at hheight
    obtain ⟨d, rfl⟩ : ∃ d, depth = d + 1 := Nat.exists_eq_succ_of_ne_zero (by omega)
    have hitems := heightItems_le_iff.mp (show heightItems items ≤ d by omega)
    have hkeep : keepItems? d items = some items :=
      keepItems?_eq_some_iff.mpr (List.forall₂_same.mpr fun v hv => ih v hv (hitems v hv))
    exact Option.map_eq_some_iff.mpr ⟨items, hkeep, rfl⟩
  | @object members hasc h ih =>
    rw [height] at hheight
    obtain ⟨d, rfl⟩ : ∃ d, depth = d + 1 := Nat.exists_eq_succ_of_ne_zero (by omega)
    have hmembers := heightMembers_le_iff.mp (show heightMembers members ≤ d by omega)
    have hkeep := keepMembers?_eq_self fun m hm => ih m hm (hmembers m hm)
    exact Option.map_eq_some_iff.mpr ⟨members, hkeep, by rw [hasc.distinctMembers_eq]⟩

/-! ### What a value says -/

/-- A step from a value into one of its parts. -/
inductive Step where
  | item (i : Nat)
  | member (name : String)

/-- The part of a value that a step goes into.  In an object the last member of a name counts. -/
def into? : Value → Step → Option Value
  | .array items, .item i => items[i]?
  | .object members, .member name => last? name members
  | _, _ => none

/-- The part of a value at the end of a path. -/
def at? (v : Value) : List Step → Option Value
  | [] => some v
  | step :: path => (v.into? step).bind (·.at? path)

/-- A value without its parts. -/
def outline : Value → Value
  | .array _ => .array []
  | .object _ => .object []
  | v => v

/-- Two values look the same at the end of every path. -/
def SameContent (v w : Value) : Prop := ∀ path, (v.at? path).map outline = (w.at? path).map outline

/-- A value and what is kept of it look the same. -/
lemma Kept.outline_eq (h : Kept depth v w) : v.outline = w.outline := by
  cases h <;> rfl

/-- A step goes into a part of a value and into what is kept of this part, or into neither. -/
lemma Kept.rel_into? (h : Kept depth v w) (step : Step) :
    Option.Rel (fun v' w' => ∃ d, v'.keep? d = some w') (v.into? step) (w.into? step) := by
  cases h with
  | leaf hv => cases hv <;> exact .none
  | @array d items items' hdepth hitems =>
    cases step with
    | item i =>
      exact rel_getElem?_of_forall₂ (hitems.imp fun _ _ hkeep => ⟨d, hkeep⟩) i
    | member name => exact .none
  | @object d members members' hdepth hmembers =>
    cases step with
    | item i => exact .none
    | member name =>
      have hlast : last? name (distinctMembers members') = last? name members' := by
        rw [last?_eq_lookup_of_nodup (ascending_distinctMembers members').nodup,
          lookup_distinctMembers]
      rw [into?, into?, hlast]
      exact SameNames.last? (hmembers.imp fun _ _ hkeep => ⟨hkeep.1, d, hkeep.2⟩) name

/-- What is kept of a value says the same. -/
theorem sameContent_of_keep? (h : v.keep? depth = some w) : SameContent v w := by
  intro path
  induction path generalizing depth v w with
  | nil => exact congrArg some (kept_of_keep? h).outline_eq
  | cons step path ih =>
    have hrel := (kept_of_keep? h).rel_into? step
    unfold at?
    generalize v.into? step = v', w.into? step = w' at hrel ⊢
    cases hrel with
    | none => rfl
    | some hkeep =>
      obtain ⟨d, hkeep⟩ := hkeep
      exact ih hkeep

/-! ### The normal form is the only one -/

/-- Values that say the same look the same. -/
lemma SameContent.outline_eq (h : SameContent v w) : v.outline = w.outline :=
  Option.some.inj (h [])

/-- The parts of values that say the same do so too. -/
lemma SameContent.rel_into? (h : SameContent v w) (step : Step) :
    Option.Rel SameContent (v.into? step) (w.into? step) := by
  have hpart : ∀ path, ((v.into? step).bind (·.at? path)).map outline =
      ((w.into? step).bind (·.at? path)).map outline := fun path => h (step :: path)
  generalize v.into? step = v', w.into? step = w' at hpart ⊢
  cases v' with
  | none =>
    cases w' with
    | none => exact .none
    | some w' => cases hpart []
  | some v' =>
    cases w' with
    | none => cases hpart []
    | some w' => exact .some hpart

/-- Normal forms that say the same are the same. -/
theorem Normal.eq_of_sameContent (hv : v.Normal) (hw : w.Normal) (h : SameContent v w) : v = w := by
  induction hv generalizing w with
  | leaf hleaf =>
    have houtline := h.outline_eq
    cases hw with
    | leaf hleaf' => cases hleaf <;> cases hleaf' <;> exact houtline
    | array => cases hleaf <;> cases houtline
    | object => cases hleaf <;> cases houtline
  | @array items hitems ih =>
    cases hw with
    | leaf hleaf => cases hleaf <;> cases h.outline_eq
    | object => cases h.outline_eq
    | @array items' hitems' =>
      refine congrArg Value.array (List.ext_getElem? fun i => ?_)
      have hrel : Option.Rel SameContent items[i]? items'[i]? := h.rel_into? (.item i)
      generalize hx : items[i]? = x, hy : items'[i]? = y at hrel ⊢
      cases hrel with
      | none => rfl
      | some hsame =>
        have hmem := List.mem_of_getElem? hx
        have hmem' := List.mem_of_getElem? hy
        exact congrArg some (ih _ hmem (hitems' _ hmem') hsame)
  | @object members hasc hmembers ih =>
    cases hw with
    | leaf hleaf => cases hleaf <;> cases h.outline_eq
    | array => cases h.outline_eq
    | @object members' hasc' hmembers' =>
      refine congrArg Value.object (hasc.ext hasc' fun name => ?_)
      have hrel : Option.Rel SameContent (last? name members) (last? name members') :=
        h.rel_into? (.member name)
      rw [last?_eq_lookup_of_nodup hasc.nodup, last?_eq_lookup_of_nodup hasc'.nodup] at hrel
      generalize hx : members.lookup name = x, hy : members'.lookup name = y at hrel ⊢
      cases hrel with
      | none => rfl
      | some hsame =>
        have hmem := (lookup_eq_some_iff_mem hasc.nodup).mp hx
        have hmem' := (lookup_eq_some_iff_mem hasc'.nodup).mp hy
        exact congrArg some (ih _ hmem (hmembers' _ hmem') hsame)

end InlineExpect.Json.Value
