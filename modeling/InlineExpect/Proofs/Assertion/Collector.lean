import Mathlib
import InlineExpect.Assertion.Extract
import InlineExpect.Proofs.Assertion.Occurrence

/-!
# What a collector collects

A `Collector` takes bindings one after the other, and takes back what it has when a line is bound a
second time by the same kind of mark.  Seen from the end, this is counting: the collected set holds
the entries whose line occurs once among the entries of their kind, and a duplicate for each line
and kind that occurs twice or more often (`Collector.collects_foldl`).  The entries of one kind are
all that matters for it.
-/

namespace InlineExpect

/-- The line and the kind of a binding. -/
def Binding.key (b : Binding) : Duplicate := ⟨b.line, b.mark.kind⟩

/-- The expected type of a binding with its line. -/
def Binding.type? (b : Binding) : Option (Nat × String) :=
  match b.mark with
  | .type expected => some (b.line, String.ofList expected)
  | .error => none

/-- The line of a binding that expects a diagnostic. -/
def Binding.errorLine? (b : Binding) : Option Nat :=
  match b.mark with
  | .type _ => none
  | .error => some b.line

/-- The expected types among some bindings, with their lines. -/
def typeEntries (bs : List Binding) : List (Nat × String) := bs.filterMap Binding.type?

/-- The lines of the expected diagnostics among some bindings. -/
def errorEntries (bs : List Binding) : List Nat := bs.filterMap Binding.errorLine?

/-! ### Counting keys -/

/-- The lines of expected types are counted by the keys of their kind. -/
lemma count_key_type (bs : List Binding) (line : Nat) :
    (bs.map Binding.key).count ⟨line, .type⟩ = ((typeEntries bs).map Prod.fst).count line := by
  induction bs with
  | nil => rfl
  | cons b bs ih =>
    obtain ⟨l, mark⟩ := b
    cases mark with
    | type expected =>
      have : typeEntries (⟨l, .type expected⟩ :: bs) =
          (l, String.ofList expected) :: typeEntries bs := rfl
      rw [this, List.map_cons, List.map_cons, List.count_cons, List.count_cons, ih]
      simp [Binding.key, Mark.kind]
    | error =>
      have : typeEntries (⟨l, .error⟩ :: bs) = typeEntries bs := rfl
      rw [this, List.map_cons, List.count_cons, ih]
      simp [Binding.key, Mark.kind]

/-- The lines of expected diagnostics are counted by the keys of their kind. -/
lemma count_key_error (bs : List Binding) (line : Nat) :
    (bs.map Binding.key).count ⟨line, .error⟩ = (errorEntries bs).count line := by
  induction bs with
  | nil => rfl
  | cons b bs ih =>
    obtain ⟨l, mark⟩ := b
    cases mark with
    | type expected =>
      have : errorEntries (⟨l, .type expected⟩ :: bs) = errorEntries bs := rfl
      rw [this, List.map_cons, List.count_cons, ih]
      simp [Binding.key, Mark.kind]
    | error =>
      have : errorEntries (⟨l, .error⟩ :: bs) = l :: errorEntries bs := rfl
      rw [this, List.map_cons, List.count_cons, List.count_cons, ih]
      simp [Binding.key, Mark.kind]

/-! ### One kind of entries -/

/-- The entries of one kind, of which those that occur once have been kept and the keys of the
others have been lost. -/
structure Tally {α : Type} (key : α → Nat) (entries kept : List α) (lost : List Nat) : Prop where
  kept_eq : kept = once key entries
  mem_lost_iff : ∀ k, k ∈ lost ↔ 2 ≤ (entries.map key).count k

namespace Tally

variable {α : Type} {key : α → Nat} {entries kept : List α} {lost : List Nat} {x : α}

/-- Nothing is kept or lost of no entries. -/
lemma nil (key : α → Nat) : Tally key [] [] [] := ⟨rfl, by simp⟩

/-- A key is lost if it occurs more than once. -/
lemma contains_lost_iff (h : Tally key entries kept lost) (k : Nat) :
    lost.contains k = true ↔ 2 ≤ (entries.map key).count k := by
  rw [List.contains_iff_mem, h.mem_lost_iff]

/-- A key is kept if it occurs once. -/
lemma contains_kept_iff (h : Tally key entries kept lost) (k : Nat) :
    (kept.map key).contains k = true ↔ (entries.map key).count k = 1 := by
  rw [List.contains_iff_mem, h.kept_eq, mem_map_once_iff]

/-- A key that is neither lost nor kept does not occur. -/
lemma count_eq_zero (h : Tally key entries kept lost) {k : Nat} (hlost : ¬ lost.contains k = true)
    (hkept : ¬ (kept.map key).contains k = true) : (entries.map key).count k = 0 := by
  rw [h.contains_lost_iff] at hlost
  rw [h.contains_kept_iff] at hkept
  omega

/-- An entry with a lost key changes nothing. -/
lemma concat_of_lost (h : Tally key entries kept lost)
    (hx : 2 ≤ (entries.map key).count (key x)) : Tally key (entries ++ [x]) kept lost := by
  refine ⟨h.kept_eq.trans (once_concat_of_two_le_count hx).symm, fun k => ?_⟩
  rw [h.mem_lost_iff, count_map_concat]
  by_cases hk : key x = k
  · subst hk
    simp only [if_true]
    omega
  · rw [if_neg hk, Nat.add_zero]

/-- An entry with a kept key takes back what was kept, and the key is lost. -/
lemma concat_of_kept (h : Tally key entries kept lost)
    (hx : (entries.map key).count (key x) = 1) :
    Tally key (entries ++ [x]) (kept.filter fun y => key y != key x) (key x :: lost) := by
  refine ⟨?_, fun k => ?_⟩
  · rw [h.kept_eq, once_concat_of_count_pos (by omega)]
  · rw [List.mem_cons, h.mem_lost_iff, count_map_concat]
    by_cases hk : key x = k
    · subst hk
      simp [hx]
    · simp [hk, Ne.symm hk]

/-- An entry with a new key is kept. -/
lemma concat_of_new (h : Tally key entries kept lost)
    (hx : (entries.map key).count (key x) = 0) :
    Tally key (entries ++ [x]) (kept ++ [x]) lost := by
  refine ⟨?_, fun k => ?_⟩
  · rw [h.kept_eq, once_concat_of_count_eq_zero hx]
  · rw [h.mem_lost_iff, count_map_concat]
    by_cases hk : key x = k
    · subst hk
      simp [hx]
    · rw [if_neg hk, Nat.add_zero]

end Tally

/-! ### The invariant of a collector -/

namespace Collector

/-- What a collector holds after it has taken some bindings. -/
structure Collects (c : Collector) (bs : List Binding) : Prop where
  types : Tally Prod.fst (typeEntries bs) c.set.types c.invalidTypeLines
  errors : Tally id (errorEntries bs) c.set.errorLines c.invalidErrorLines
  duplicates : c.set.duplicates = seconds (bs.map Binding.key)

variable {c : Collector} {bs : List Binding}

/-- A collector that has taken nothing holds nothing. -/
lemma collects_nil : Collects {} [] := ⟨.nil _, .nil _, rfl⟩

/-- A further binding is a duplicate if its key has occurred once. -/
lemma seconds_map_key_concat (bs : List Binding) (b : Binding) :
    seconds ((bs ++ [b]).map Binding.key) = seconds (bs.map Binding.key) ++
      if (bs.map Binding.key).count b.key = 1 then [b.key] else [] := by
  rw [List.map_append, List.map_singleton, seconds_concat]

/-- The invariant is kept when an expected type is added. -/
lemma Collects.addType (h : c.Collects bs) (line : Nat) (expected : List Char) :
    (c.addType line (String.ofList expected)).Collects (bs ++ [⟨line, .type expected⟩]) := by
  set entry : Nat × String := (line, String.ofList expected)
  set n := ((typeEntries bs).map Prod.fst).count line with hn
  have htypes : typeEntries (bs ++ [⟨line, .type expected⟩]) = typeEntries bs ++ [entry] := by
    rw [typeEntries, List.filterMap_append]
    rfl
  have herrors : Tally id (errorEntries (bs ++ [⟨line, .type expected⟩])) c.set.errorLines
      c.invalidErrorLines := by
    rw [errorEntries, List.filterMap_append]
    exact (List.append_nil (errorEntries bs)).symm ▸ h.errors
  have hseconds : seconds ((bs ++ [(⟨line, .type expected⟩ : Binding)]).map Binding.key) =
      c.set.duplicates ++ if n = 1 then [(⟨line, .type⟩ : Duplicate)] else [] := by
    rw [seconds_map_key_concat, h.duplicates, hn, ← count_key_type]
    rfl
  unfold Collector.addType
  split_ifs with hl hk
  · have hn : 2 ≤ n := (h.types.contains_lost_iff line).mp hl
    refine ⟨htypes ▸ h.types.concat_of_lost hn, herrors, ?_⟩
    rw [hseconds, if_neg (by omega), List.append_nil]
  · have hn : n = 1 := (h.types.contains_kept_iff line).mp hk
    refine ⟨htypes ▸ h.types.concat_of_kept hn, herrors, ?_⟩
    rw [hseconds, if_pos hn]
  · have hn : n = 0 := h.types.count_eq_zero hl hk
    refine ⟨htypes ▸ h.types.concat_of_new hn, herrors, ?_⟩
    rw [hseconds, if_neg (by omega), List.append_nil]

/-- The invariant is kept when an expected diagnostic is added. -/
lemma Collects.addError (h : c.Collects bs) (line : Nat) :
    (c.addError line).Collects (bs ++ [⟨line, .error⟩]) := by
  set n := ((errorEntries bs).map id).count line with hn
  have herrors : errorEntries (bs ++ [⟨line, .error⟩]) = errorEntries bs ++ [line] := by
    rw [errorEntries, List.filterMap_append]
    rfl
  have htypes : Tally Prod.fst (typeEntries (bs ++ [⟨line, .error⟩])) c.set.types
      c.invalidTypeLines := by
    rw [typeEntries, List.filterMap_append]
    exact (List.append_nil (typeEntries bs)).symm ▸ h.types
  have hseconds : seconds ((bs ++ [(⟨line, .error⟩ : Binding)]).map Binding.key) =
      c.set.duplicates ++ if n = 1 then [(⟨line, .error⟩ : Duplicate)] else [] := by
    rw [seconds_map_key_concat, h.duplicates, hn, List.map_id, ← count_key_error]
    rfl
  unfold Collector.addError
  split_ifs with hl hk
  · have hn : 2 ≤ n := (h.errors.contains_lost_iff line).mp hl
    refine ⟨htypes, herrors ▸ h.errors.concat_of_lost hn, ?_⟩
    rw [hseconds, if_neg (by omega), List.append_nil]
  · rw [← List.map_id c.set.errorLines] at hk
    have hn : n = 1 := (h.errors.contains_kept_iff line).mp hk
    refine ⟨htypes, herrors ▸ h.errors.concat_of_kept hn, ?_⟩
    rw [hseconds, if_pos hn]
  · rw [← List.map_id c.set.errorLines] at hk
    have hn : n = 0 := h.errors.count_eq_zero hl hk
    refine ⟨htypes, herrors ▸ h.errors.concat_of_new hn, ?_⟩
    rw [hseconds, if_neg (by omega), List.append_nil]

/-- The invariant is kept when a binding is added. -/
lemma Collects.add (h : c.Collects bs) (b : Binding) : (c.add b).Collects (bs ++ [b]) := by
  obtain ⟨line, mark⟩ := b
  cases mark with
  | type expected => exact h.addType line expected
  | error => exact h.addError line

/-- What a collector holds after it has taken all of some bindings. -/
theorem collects_foldl (bs : List Binding) : (bs.foldl add {}).Collects bs := by
  induction bs using List.reverseRecOn with
  | nil => exact collects_nil
  | append_singleton bs b ih =>
    rw [List.foldl_append]
    exact ih.add b

end Collector

namespace AssertionSet

/-- No two expected types of some bindings are on the same line. -/
lemma nodup_types_ofBindings (bs : List Binding) :
    ((ofBindings bs).types.map Prod.fst).Nodup := by
  have h := (Collector.collects_foldl bs).types.kept_eq
  rw [ofBindings, h]
  exact nodup_map_once

/-- No two expected types of a text are on the same line. -/
lemma nodup_types_extract (text : List Char) : ((extract text).types.map Prod.fst).Nodup := by
  unfold extract
  split
  · exact nodup_types_ofBindings _
  · exact List.nodup_nil

end AssertionSet

end InlineExpect
