import Mathlib
import InlineExpect.Environment.Cache
import InlineExpect.Proofs.Lookup

/-!
# Slots of a cache

What the operations of a cache do to the environments that are found in it.  A slot that is made for
a request changes none of them, and an empty slot does not count for the size.  The size is the
number of versions that have an environment, because no version has two slots.
-/

namespace InlineExpect

namespace EnvironmentCache

variable {c : EnvironmentCache} {u v : Version} {slot : Option Environment}
  {slots : List (Version × Option Environment)}

/-- The slot that is set is found, and the others stay as they are. -/
lemma lookup_setSlot (u v : Version) (slot : Option Environment)
    (slots : List (Version × Option Environment)) :
    (setSlot v slot slots).lookup u = if u = v then some slot else slots.lookup u := by
  induction slots with
  | nil =>
    rw [setSlot, List.lookup_cons]
    by_cases huv : u = v
    · simp [huv]
    · simp [huv, beq_eq_false_iff_ne.mpr huv]
  | cons p slots ih =>
    obtain ⟨w, s⟩ := p
    rw [setSlot]
    split
    · rename_i hwv
      subst hwv
      rw [List.lookup_cons, List.lookup_cons]
      by_cases huw : u = w
      · simp [huw]
      · simp [huw, beq_eq_false_iff_ne.mpr huw]
    · rename_i hwv
      rw [List.lookup_cons, List.lookup_cons, ih]
      by_cases huw : u = w
      · have huv : u ≠ v := huw ▸ hwv
        simp [huw, hwv]
      · simp [beq_eq_false_iff_ne.mpr huw]

/-- The versions with a slot stay the same, but for the one whose slot is set. -/
lemma mem_map_fst_setSlot :
    u ∈ (setSlot v slot slots).map Prod.fst ↔ u = v ∨ u ∈ slots.map Prod.fst := by
  induction slots with
  | nil => simp [setSlot]
  | cons p slots ih =>
    obtain ⟨w, s⟩ := p
    rw [setSlot]
    split
    · rename_i hwv
      subst hwv
      simp
    · rw [List.map_cons, List.mem_cons, ih, List.map_cons, List.mem_cons]
      tauto

/-- No version gets a second slot. -/
lemma nodup_setSlot (h : (slots.map Prod.fst).Nodup) :
    ((setSlot v slot slots).map Prod.fst).Nodup := by
  induction slots with
  | nil => simp [setSlot]
  | cons p slots ih =>
    obtain ⟨w, s⟩ := p
    obtain ⟨hnotin, hnodup⟩ := List.nodup_cons.mp h
    rw [setSlot]
    split
    · rename_i hwv
      subst hwv
      exact h
    · rename_i hwv
      refine List.nodup_cons.mpr ⟨fun hmem => ?_, ih hnodup⟩
      rcases mem_map_fst_setSlot.mp hmem with heq | hmem
      · exact hwv heq
      · exact hnotin hmem

/-- A slot for a request changes no environment. -/
@[simp] lemma environment?_withSlot (c : EnvironmentCache) (u v : Version) :
    (c.withSlot v).environment? u = c.environment? u := by
  rw [environment?, withSlot, lookup_setSlot]
  split
  · rename_i huv
    rw [huv]
    rfl
  · rfl

/-- An environment that is stored is found under its version. -/
@[simp] lemma environment?_store (c : EnvironmentCache) (e : Environment) (u : Version) :
    (c.store e).environment? u = if u = e.version then some e else c.environment? u := by
  rw [environment?, store, lookup_setSlot]
  split <;> rfl

/-- Nothing is found in a cache that has been cleared. -/
@[simp] lemma environment?_clear (c : EnvironmentCache) (u : Version) :
    c.clear.environment? u = none := rfl

/-- No version has two slots. -/
def OneSlotEach (c : EnvironmentCache) : Prop := (c.slots.map Prod.fst).Nodup

namespace OneSlotEach

lemma withSlot (h : c.OneSlotEach) (v : Version) : (c.withSlot v).OneSlotEach := nodup_setSlot h

lemma store (h : c.OneSlotEach) (e : Environment) : (c.store e).OneSlotEach := nodup_setSlot h

lemma clear (c : EnvironmentCache) : c.clear.OneSlotEach := List.nodup_nil

/-- An environment is found if and only if it stands in a slot. -/
lemma environment?_eq_some_iff (h : c.OneSlotEach) {e : Environment} :
    c.environment? v = some e ↔ (v, some e) ∈ c.slots := by
  rw [environment?, Option.join_eq_some_iff, lookup_eq_some_iff_mem h]

/-- The size of a cache is the number of versions that have an environment. -/
lemma size_eq_ncard (h : c.OneSlotEach) : c.size = {v | ∃ e, c.environment? v = some e}.ncard := by
  set filled := (c.slots.filter (·.2.isSome)).map Prod.fst with hfilled
  have hnodup : filled.Nodup := h.sublist (List.filter_sublist.map Prod.fst)
  have hset : {v | ∃ e, c.environment? v = some e} = (filled.toFinset : Set Version) := by
    ext v
    rw [Set.mem_ofPred_eq, List.coe_toFinset, Set.mem_ofPred_eq, hfilled, List.mem_map]
    constructor
    · rintro ⟨e, he⟩
      exact ⟨(v, some e), List.mem_filter.mpr ⟨h.environment?_eq_some_iff.mp he, rfl⟩, rfl⟩
    · rintro ⟨⟨w, slot⟩, hmem, rfl⟩
      obtain ⟨hmem, hsome⟩ := List.mem_filter.mp hmem
      obtain ⟨e, rfl⟩ := Option.isSome_iff_exists.mp hsome
      exact ⟨e, h.environment?_eq_some_iff.mpr hmem⟩
  rw [hset, Set.ncard_coe_finset, List.toFinset_card_of_nodup hnodup, hfilled, List.length_map,
    size]

end OneSlotEach

end EnvironmentCache

end InlineExpect
