import Mathlib
import InlineExpect.Proofs.Assertion.Ownership

/-!
# Tidy assertion sets

The bindings of a text are `Sparse`: their lines do not descend, and no line has more than two.
That is all it takes for the set of assertions that they make to be `AssertionSet.Tidy`.  A line
with a duplicate uses up its two bindings, so that it has no assertion left, neither of the same
kind nor of the other.
-/

namespace InlineExpect

/-! ### Counting bindings by line -/

/-- The bindings of a line are those of the two kinds. -/
lemma count_line_eq (bs : List Binding) (line : Nat) : (bs.map Binding.line).count line =
    (bs.map Binding.key).count ⟨line, .type⟩ + (bs.map Binding.key).count ⟨line, .error⟩ := by
  induction bs with
  | nil => rfl
  | cons b bs ih =>
    obtain ⟨l, mark⟩ := b
    simp only [List.map_cons, List.count_cons, ih]
    cases mark with
    | type expected =>
      simp only [Binding.key, Mark.kind, beq_iff_eq, Duplicate.mk.injEq, and_true, reduceCtorEq,
        and_false, if_false]
      omega
    | error =>
      simp only [Binding.key, Mark.kind, beq_iff_eq, Duplicate.mk.injEq, and_true, reduceCtorEq,
        and_false, if_false]
      omega

/-- Marks of two different kinds bind a line no more often than all marks do. -/
lemma add_count_key_le (bs : List Binding) (line : Nat) {j k : AssertionKind} (hne : j ≠ k) :
    (bs.map Binding.key).count ⟨line, j⟩ + (bs.map Binding.key).count ⟨line, k⟩ ≤
      (bs.map Binding.line).count line := by
  rw [count_line_eq]
  cases j with
  | type =>
    cases k with
    | type => exact absurd rfl hne
    | error => exact le_rfl
  | error =>
    cases k with
    | type => exact (Nat.add_comm _ _).le
    | error => exact absurd rfl hne

/-- Some bindings are sparse if their lines do not descend, no line is bound more than twice, and
they are lines of a text with the given number of lines, or the one behind it. -/
structure Sparse (bs : List Binding) (lineCount : Nat) : Prop where
  ascending : bs.Pairwise fun b c => b.line ≤ c.line
  count_le_two : ∀ line, (bs.map Binding.line).count line ≤ 2
  count_zero_le_one : (bs.map Binding.line).count 0 ≤ 1
  line_le : ∀ b ∈ bs, b.line ≤ lineCount

/-! ### The bindings of a text are sparse -/

/-- A line is bound by the comments that make an assertion about it. -/
lemma count_line_bindings (text : List Char) (line : Nat) :
    (((Comment.scan text).filterMap
      (Comment.binding? (LineIndex.ofText text))).map Binding.line).count line =
        (assertionsAbout text line).length := by
  rw [List.count, List.countP_map, List.countP_filterMap, assertionsAbout,
    ← List.countP_eq_length_filter]
  refine List.countP_congr fun c _ => ?_
  unfold Comment.isAbout
  cases c.binding? (LineIndex.ofText text) <;> rfl

/-- The bindings of a text are sparse. -/
lemma sparse_bindings (text : List Char) :
    Sparse (bindings (LineCursor.start (LineIndex.ofText text)) (Comment.scan text))
      (LineIndex.ofText text).lineCount := by
  rw [bindings_eq_filterMap]
  refine ⟨?_, fun line => ?_, ?_, fun b hb => ?_⟩
  · rw [List.pairwise_filterMap]
    refine (Comment.pairwise_line_scan text).imp fun {c d} hlt b hb b' hb' => ?_
    obtain ⟨hisLine, l, hl, hbl⟩ := Comment.exists_lineOf_of_binding? hb
    obtain ⟨-, m, hm, hbm⟩ := Comment.exists_lineOf_of_binding? hb'
    have hlm := hlt hisLine l m hl hm
    have hcl := (c.owningLine_bounds l).2
    have hdm := (d.owningLine_bounds m).1
    omega
  · obtain ⟨above, behind, heq, -, -⟩ := exists_assertionsAbout_eq text line
    rw [count_line_bindings, heq, List.length_append]
    have habove : above.toList.length ≤ 1 := by cases above <;> simp
    have hbehind : behind.toList.length ≤ 1 := by cases behind <;> simp
    omega
  · obtain ⟨above, behind, heq, habove, -⟩ := exists_assertionsAbout_eq text 0
    rw [count_line_bindings, heq]
    -- There is no line above the first one.
    cases above with
    | none => cases behind <;> simp
    | some c =>
      obtain ⟨-, l, -, hl⟩ := habove c rfl
      exact absurd hl (Nat.succ_ne_zero l).symm
  · obtain ⟨c, -, hc⟩ := List.mem_filterMap.mp hb
    obtain ⟨-, l, hl, hbl⟩ := Comment.exists_lineOf_of_binding? hc
    have hlt := (LineIndex.contains_of_lineOf_eq_ok hl).lt_lineCount
    have hcl := (c.owningLine_bounds l).2
    omega

/-! ### What bindings make -/

namespace Binding

/-- An expected type is on the line of its binding. -/
lemma line_of_type? {b : Binding} {p : Nat × String} (h : b.type? = some p) : p.1 = b.line := by
  unfold type? at h
  split at h
  · rw [← Option.some.inj h]
  · simp at h

/-- An expected diagnostic is on the line of its binding. -/
lemma line_of_errorLine? {b : Binding} {l : Nat} (h : b.errorLine? = some l) : l = b.line := by
  unfold errorLine? at h
  split at h
  · simp at h
  · exact (Option.some.inj h).symm

end Binding

namespace AssertionSet

variable {bs : List Binding} {line : Nat}

/-- A line keeps its expected type if it is bound once by a mark of this kind. -/
lemma mem_types_ofBindings_iff : line ∈ (ofBindings bs).types.map Prod.fst ↔
    (bs.map Binding.key).count ⟨line, .type⟩ = 1 := by
  have htypes : (ofBindings bs).types = once Prod.fst (typeEntries bs) :=
    (Collector.collects_foldl bs).types.kept_eq
  rw [htypes, mem_map_once_iff, count_key_type]

/-- A line keeps its expected diagnostic if it is bound once by a mark of this kind. -/
lemma mem_errorLines_ofBindings_iff : line ∈ (ofBindings bs).errorLines ↔
    (bs.map Binding.key).count ⟨line, .error⟩ = 1 := by
  have herrors : (ofBindings bs).errorLines = once id (errorEntries bs) :=
    (Collector.collects_foldl bs).errors.kept_eq
  rw [herrors, ← List.map_id (once id (errorEntries bs)), mem_map_once_iff, List.map_id,
    count_key_error]

/-- The duplicates are the second bindings. -/
lemma duplicates_ofBindings (bs : List Binding) :
    (ofBindings bs).duplicates = seconds (bs.map Binding.key) :=
  (Collector.collects_foldl bs).duplicates

/-- A line with duplicates is bound more than once by marks of one kind. -/
lemma exists_kind_of_mem_duplicateLines (h : line ∈ (ofBindings bs).duplicateLines) :
    ∃ k, 2 ≤ (bs.map Binding.key).count ⟨line, k⟩ := by
  obtain ⟨d, hd, rfl⟩ := List.mem_map.mp h
  rw [duplicates_ofBindings] at hd
  exact ⟨d.kind, mem_seconds_iff.mp hd⟩

end AssertionSet

/-! ### What sparse bindings make -/

namespace Sparse

open AssertionSet

variable {bs : List Binding} {lineCount line : Nat} {j k : AssertionKind}

/-- The lines of the expected types ascend. -/
lemma types_ascending (h : Sparse bs lineCount) :
    ((ofBindings bs).types.map Prod.fst).Pairwise (· < ·) := by
  have htypes : (ofBindings bs).types = once Prod.fst (typeEntries bs) :=
    (Collector.collects_foldl bs).types.kept_eq
  have hle : (typeEntries bs).Pairwise fun p q => p.1 ≤ q.1 := by
    rw [typeEntries, List.pairwise_filterMap]
    refine h.ascending.imp fun {b c} hbc p hp q hq => ?_
    rw [Binding.line_of_type? hp, Binding.line_of_type? hq]
    exact hbc
  have hsorted : ((once Prod.fst (typeEntries bs)).map Prod.fst).Pairwise (· ≤ ·) :=
    List.pairwise_map.mpr (hle.filter _)
  rw [htypes]
  exact (hsorted.and nodup_map_once).imp fun hpq => lt_of_le_of_ne hpq.1 hpq.2

/-- The lines of the expected diagnostics ascend. -/
lemma errorLines_ascending (h : Sparse bs lineCount) :
    (ofBindings bs).errorLines.Pairwise (· < ·) := by
  have herrors : (ofBindings bs).errorLines = once id (errorEntries bs) :=
    (Collector.collects_foldl bs).errors.kept_eq
  have hle : (errorEntries bs).Pairwise (· ≤ ·) := by
    rw [errorEntries, List.pairwise_filterMap]
    refine h.ascending.imp fun {b c} hbc l hl m hm => ?_
    rw [Binding.line_of_errorLine? hl, Binding.line_of_errorLine? hm]
    exact hbc
  have hnodup : ((once id (errorEntries bs)).map id).Nodup := nodup_map_once
  rw [List.map_id] at hnodup
  rw [herrors]
  exact ((hle.filter _).and hnodup).imp fun hlm => lt_of_le_of_ne hlm.1 hlm.2

/-- A line that is bound twice by one kind of marks is not bound by the other. -/
lemma kind_eq_of_two_le (h : Sparse bs lineCount)
    (hj : 2 ≤ (bs.map Binding.key).count ⟨line, j⟩)
    (hk : 1 ≤ (bs.map Binding.key).count ⟨line, k⟩) : j = k := by
  by_contra hne
  have hsum := add_count_key_le bs line hne
  have htwo := h.count_le_two line
  omega

/-- The lines of the duplicates ascend. -/
lemma duplicateLines_ascending (h : Sparse bs lineCount) :
    (ofBindings bs).duplicateLines.Pairwise (· < ·) := by
  have hkeys : (bs.map Binding.key).Pairwise fun d e => d.line ≤ e.line :=
    List.pairwise_map.mpr h.ascending
  have hle := hkeys.sublist (seconds_sublist _)
  rw [duplicateLines, duplicates_ofBindings]
  refine List.pairwise_map.mpr ((hle.and (nodup_seconds _)).imp_of_mem fun {d e} hd he hde => ?_)
  refine lt_of_le_of_ne hde.1 fun hline => hde.2 ?_
  -- Two duplicates on one line would be of different kinds.
  obtain ⟨l, j⟩ := d
  obtain ⟨m, k⟩ := e
  obtain rfl : l = m := hline
  have hj := mem_seconds_iff.mp hd
  have hk := mem_seconds_iff.mp he
  have hsame : j = k := h.kind_eq_of_two_le hj (one_le_two.trans hk)
  rw [hsame]

/-- The first line has no duplicates. -/
lemma zero_not_mem (h : Sparse bs lineCount) : 0 ∉ (ofBindings bs).duplicateLines := by
  intro hzero
  obtain ⟨k, hk⟩ := exists_kind_of_mem_duplicateLines hzero
  have hle : (bs.map Binding.key).count ⟨0, k⟩ ≤ (bs.map Binding.line).count 0 := by
    rw [count_line_eq]
    cases k <;> omega
  have hone := h.count_zero_le_one
  omega

/-- A line that is bound is a line of the text or the one behind it. -/
lemma le_of_count_pos (h : Sparse bs lineCount)
    (hk : 1 ≤ (bs.map Binding.key).count ⟨line, k⟩) : line ≤ lineCount := by
  obtain ⟨b, hb, hkey⟩ := List.mem_map.mp (List.count_pos_iff.mp hk)
  have hline : b.line = line := congrArg Duplicate.line hkey
  exact hline ▸ h.line_le b hb

end Sparse

/-! ### Tidy sets -/

namespace AssertionSet

/-- A set of assertions about a text with some number of lines is tidy if its lines ascend, a line
with duplicates is not a line of any other assertion, the first line has no duplicates, and all
lines are lines of the text or the one behind it. -/
structure Tidy (s : AssertionSet) (lineCount : Nat) : Prop where
  types_ascending : (s.types.map Prod.fst).Pairwise (· < ·)
  errorLines_ascending : s.errorLines.Pairwise (· < ·)
  duplicateLines_ascending : s.duplicateLines.Pairwise (· < ·)
  not_mem_types : ∀ line ∈ s.duplicateLines, line ∉ s.types.map Prod.fst
  not_mem_errorLines : ∀ line ∈ s.duplicateLines, line ∉ s.errorLines
  zero_not_mem : 0 ∉ s.duplicateLines
  line_le : ∀ line ∈ s.types.map Prod.fst ++ s.errorLines ++ s.duplicateLines, line ≤ lineCount

/-- The assertions of sparse bindings are tidy. -/
lemma tidy_ofBindings {bs : List Binding} {lineCount : Nat} (h : Sparse bs lineCount) :
    (ofBindings bs).Tidy lineCount where
  types_ascending := h.types_ascending
  errorLines_ascending := h.errorLines_ascending
  duplicateLines_ascending := h.duplicateLines_ascending
  not_mem_types := by
    intro line hline htype
    obtain ⟨k, hk⟩ := exists_kind_of_mem_duplicateLines hline
    rw [mem_types_ofBindings_iff] at htype
    obtain rfl := h.kind_eq_of_two_le hk htype.ge
    omega
  not_mem_errorLines := by
    intro line hline herror
    obtain ⟨k, hk⟩ := exists_kind_of_mem_duplicateLines hline
    rw [mem_errorLines_ofBindings_iff] at herror
    obtain rfl := h.kind_eq_of_two_le hk herror.ge
    omega
  zero_not_mem := h.zero_not_mem
  line_le := by
    intro line hline
    rw [List.mem_append, List.mem_append] at hline
    rcases hline with (htype | herror) | hduplicate
    · exact h.le_of_count_pos (mem_types_ofBindings_iff.mp htype).ge
    · exact h.le_of_count_pos (mem_errorLines_ofBindings_iff.mp herror).ge
    · obtain ⟨k, hk⟩ := exists_kind_of_mem_duplicateLines hduplicate
      exact h.le_of_count_pos (one_le_two.trans hk)

/-- The assertions that are extracted from a text are tidy. -/
lemma tidy_extract (text : List Char) : (extract text).Tidy (LineIndex.ofText text).lineCount := by
  rw [extract_eq_ofComments]
  exact tidy_ofBindings (sparse_bindings text)

/-- At most one line comment starts on a line, so that a line has at most two comments that make an
assertion about it, one alone on the line above and one behind its own code.  Hence the extracted
assertions are tidy, and no line has duplicates of both kinds. -/
theorem extract_tidy_of_ownership (text : List Char) :
    (∀ line, (Comment.scan text).countP
      (fun c => c.isLine && (LineIndex.ofText text).lineOf c.start = .ok line) ≤ 1) ∧
    (∀ line, ∃ above behind : Option Comment,
      assertionsAbout text line = above.toList ++ behind.toList ∧
      (∀ c ∈ above, c.StandsAbove (LineIndex.ofText text) line) ∧
      (∀ c ∈ behind, c.StandsBehind (LineIndex.ofText text) line)) ∧
    (extract text).duplicateLines.Nodup ∧
    (extract text).Tidy (LineIndex.ofText text).lineCount := by
  have htidy := tidy_extract text
  refine ⟨countP_lineComment_le_one text, exists_assertionsAbout_eq text, ?_, htidy⟩
  exact htidy.duplicateLines_ascending.imp fun hlt => hlt.ne

end AssertionSet

end InlineExpect
