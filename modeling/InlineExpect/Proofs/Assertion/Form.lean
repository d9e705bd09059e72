import Mathlib
import InlineExpect.Proofs.Assertion.Extraction
import InlineExpect.Proofs.Assertion.Pattern

/-!
# The forms of assertions

What the body of a line comment has to look like to make an assertion, without any account of how it
is read: the body is put together from white space, a keyword and, where a type is expected, the
type (`IsTypeForm`, `IsErrorForm`).  There is only one way to do so, since white space cannot move
into a keyword or into the ends of a type.

A body is read as a mark if and only if it has such a form, and the patterns of the marks match it
then (`Mark.readByForm`).
-/

namespace InlineExpect

open Text

/-- The body of a comment that expects a type: a keyword, white space and the type, which neither
begins nor ends with white space, and white space around them. -/
structure IsTypeForm (body expected : List Char) : Prop where
  ne_nil : expected ≠ []
  head_eq : ∀ c ∈ expected.head?, isBlank c = false
  last_eq : ∀ c ∈ expected.getLast?, isBlank c = false
  written : ∃ before gap after, (∀ c ∈ before, isBlank c = true) ∧ (∀ c ∈ gap, isBlank c = true) ∧
    (∀ c ∈ after, isBlank c = true) ∧ gap ≠ [] ∧
    body = before ++ ("$ExpectType".toList ++ (gap ++ (expected ++ after)))

/-- The body of a comment that expects a diagnostic: a keyword with white space around it. -/
def IsErrorForm (body : List Char) : Prop :=
  ∃ before after, (∀ c ∈ before, isBlank c = true) ∧ (∀ c ∈ after, isBlank c = true) ∧
    body = before ++ ("$ExpectError".toList ++ after)

/-! ### Reading a form -/

variable {body rest expected : List Char}

/-- White space and then a type have to follow the keyword. -/
lemma expectedType?_eq_some_iff_of_afterKeyword? (h : afterKeyword? .type body = some rest) :
    expectedType? body = some expected ↔
      (∃ c ∈ rest.head?, isBlank c = true) ∧ trim rest = expected ∧ expected ≠ [] := by
  rw [expectedType?, h]
  cases rest with
  | nil => simp
  | cons c cs =>
    dsimp only
    rw [Option.ite_none_right_eq_some, Option.some.injEq, Bool.and_eq_true, Bool.not_eq_true',
      List.isEmpty_eq_false_iff]
    constructor
    · rintro ⟨⟨hc, hne⟩, rfl⟩
      exact ⟨⟨c, rfl, hc⟩, trim_cons_of_blank hc cs, hne⟩
    · rintro ⟨⟨d, hd, hc⟩, htrim, hne⟩
      obtain rfl := Option.some.inj hd
      rw [trim_cons_of_blank hc] at htrim
      exact ⟨⟨hc, htrim ▸ hne⟩, htrim⟩

/-- A type is read from the form of its comment. -/
lemma expectedType?_eq_some_iff :
    expectedType? body = some expected ↔ IsTypeForm body expected := by
  constructor
  · intro h
    obtain ⟨rest, hrest⟩ : ∃ rest, afterKeyword? .type body = some rest := by
      rw [← Option.ne_none_iff_exists']
      intro hnone
      rw [expectedType?, hnone] at h
      cases h
    obtain ⟨⟨g, hg, hblank⟩, htrim, hne⟩ :=
      (expectedType?_eq_some_iff_of_afterKeyword? hrest).mp h
    obtain ⟨before, hbefore, hbody⟩ := AssertionKind.afterKeyword?_eq_some_iff.mp hrest
    obtain ⟨cs, rfl⟩ := List.head?_eq_some_iff.mp hg
    rw [trim_cons_of_blank hblank] at htrim
    have htrimmed := trim_eq_iff.mp htrim
    obtain ⟨gap, after, hgap, hafter, rfl⟩ := htrimmed.padded
    refine ⟨hne, htrimmed.head_eq, htrimmed.last_eq, before, g :: gap, after, hbefore,
      fun c hc => ?_, hafter, List.cons_ne_nil g gap, hbody⟩
    rcases List.mem_cons.mp hc with rfl | hc
    · exact hblank
    · exact hgap c hc
  · rintro ⟨hne, hhead, hlast, before, gap, after, hbefore, hgap, hafter, hgapne, rfl⟩
    obtain ⟨g, gap, rfl⟩ := List.exists_cons_of_ne_nil hgapne
    have hrest := AssertionKind.type.afterKeyword?_append hbefore (g :: gap ++ (expected ++ after))
    refine (expectedType?_eq_some_iff_of_afterKeyword? hrest).mpr ?_
    exact ⟨⟨g, rfl, hgap g List.mem_cons_self⟩, trim_padded hgap hafter hhead hlast, hne⟩

/-- An expected diagnostic is read from the form of its comment. -/
lemma expectsError_iff : expectsError body = true ↔ IsErrorForm body := by
  unfold expectsError
  constructor
  · intro h
    split at h
    · rename_i after hafter
      obtain ⟨before, hbefore, hbody⟩ := AssertionKind.afterKeyword?_eq_some_iff.mp hafter
      exact ⟨before, after, hbefore, List.all_eq_true.mp h, hbody⟩
    · cases h
  · rintro ⟨before, after, hbefore, hafter, rfl⟩
    have hrest : afterKeyword? .error (before ++ ("$ExpectError".toList ++ after)) = some after :=
      AssertionKind.error.afterKeyword?_append hbefore after
    rw [hrest]
    exact List.all_eq_true.mpr hafter

/-- No comment expects a type and a diagnostic. -/
lemma IsTypeForm.not_isErrorForm (h : IsTypeForm body expected) : ¬ IsErrorForm body := by
  rintro ⟨before, after, hbefore, -, herror⟩
  obtain ⟨before', gap, after', hbefore', -, -, -, htype⟩ := h.written
  have hkeywords : afterKeyword? .error body = some after ∧
      afterKeyword? .type body = some (gap ++ (expected ++ after')) :=
    ⟨AssertionKind.afterKeyword?_eq_some_iff.mpr ⟨before, hbefore, herror⟩,
      AssertionKind.afterKeyword?_eq_some_iff.mpr ⟨before', hbefore', htype⟩⟩
  rw [afterKeyword?, afterKeyword?, List.isPrefixOf?_eq_some_iff_append_eq,
    List.isPrefixOf?_eq_some_iff_append_eq] at hkeywords
  have hsame := hkeywords.1.trans hkeywords.2.symm
  simp [AssertionKind.keyword] at hsame

/-- A body is the mark of a type if and only if it has the form of one. -/
lemma Mark.ofBody?_eq_type_iff :
    ofBody? body = some (.type expected) ↔ IsTypeForm body expected := by
  rw [← expectedType?_eq_some_iff]
  unfold ofBody?
  cases expectedType? body with
  | none => cases expectsError body <;> simp
  | some expected' => simp

/-- A body is the mark of a diagnostic if and only if it has the form of one, which is never that of
a type, though types are looked for first. -/
lemma Mark.ofBody?_eq_error_iff : ofBody? body = some .error ↔ IsErrorForm body := by
  rw [← expectsError_iff]
  unfold ofBody?
  cases h : expectedType? body with
  | none => cases expectsError body <;> simp
  | some expected =>
    have hnone : ¬ expectsError body = true := fun herror =>
      (expectedType?_eq_some_iff.mp h).not_isErrorForm (expectsError_iff.mp herror)
    simp [hnone]

/-! ### What is read -/

/-- A body is read by its form: it is a mark if and only if it has the form of one, which it has in
one way only, and the patterns match it then.  The expected type is all that follows the keyword and
white space, trimmed.  A line comment with another body binds nothing. -/
structure ReadByForm (body : List Char) : Prop where
  type_iff : ∀ expected, Mark.ofBody? body = some (.type expected) ↔ IsTypeForm body expected
  type_unique : ∀ expected expected', IsTypeForm body expected → IsTypeForm body expected' →
    expected = expected'
  type_trim : ∀ before rest, (∀ c ∈ before, isBlank c = true) →
    body = before ++ ("$ExpectType".toList ++ rest) → ∀ expected, IsTypeForm body expected ↔
      (∃ c ∈ rest.head?, isBlank c = true) ∧ trim rest = expected ∧ expected ≠ []
  error_iff : Mark.ofBody? body = some .error ↔ IsErrorForm body
  not_both : ∀ expected, ¬ (IsTypeForm body expected ∧ IsErrorForm body)
  ignored : (∀ expected, ¬ IsTypeForm body expected) → ¬ IsErrorForm body →
    Mark.ofBody? body = none ∧ ∀ c : Comment, c.body = body → ∀ cursor cs,
      bindings cursor (c :: cs) = bindings cursor cs
  captures_type : ∀ groups, AssertionKind.type.pattern.captures body = some groups ↔
    ∃ expected, groups = [expected] ∧ IsTypeForm body expected
  captures_error : AssertionKind.error.pattern.captures body = some [] ↔ IsErrorForm body

/-- The body of a line comment is read by its form. -/
theorem Mark.readByForm (hbody : ∀ c ∈ body, isLineBreak c = false) : ReadByForm body := by
  have hlf : '\n' ∉ body := fun hmem => absurd (hbody _ hmem) (by decide)
  refine ⟨fun _ => ofBody?_eq_type_iff, fun expected expected' h h' => ?_,
    fun before rest hbefore hrest expected => ?_, ofBody?_eq_error_iff,
    fun expected h => h.1.not_isErrorForm h.2, fun hnotype hnoerror => ?_, fun groups => ?_, ?_⟩
  · rw [← expectedType?_eq_some_iff] at h h'
    exact Option.some.inj (h.symm.trans h')
  · rw [← expectedType?_eq_some_iff]
    exact expectedType?_eq_some_iff_of_afterKeyword?
      (AssertionKind.afterKeyword?_eq_some_iff.mpr ⟨before, hbefore, hrest⟩)
  · have hnone : ofBody? body = none := by
      rw [Option.eq_none_iff_forall_ne_some]
      intro mark hmark
      cases mark with
      | type expected => exact hnotype expected (ofBody?_eq_type_iff.mp hmark)
      | error => exact hnoerror (ofBody?_eq_error_iff.mp hmark)
    refine ⟨hnone, fun c hc cursor cs => bindings_cons_of_none ?_ cursor cs⟩
    rw [Comment.mark?, hc, hnone, ite_self]
  · rw [AssertionKind.captures_type hlf, Option.map_eq_some_iff]
    refine exists_congr fun expected => ?_
    rw [expectedType?_eq_some_iff, and_comm, eq_comm]
  · rw [AssertionKind.captures_error, ← expectsError_iff]
    cases expectsError body <;> simp

/-- A body whose type is written like the mark of a diagnostic, with white space around it that is
no blank of the scanner. -/
def sampleBody : List Char := "\u0085$ExpectType \u0085a $ExpectError\t".toList

/-- The sample body is read by its form. -/
theorem Mark.readByForm_sampleBody : (∀ c ∈ sampleBody, isLineBreak c = false) ∧
    ReadByForm sampleBody ∧ ofBody? sampleBody = some (.type "a $ExpectError".toList) := by
  have hall : sampleBody.all (isLineBreak · == false) = true := by decide +kernel
  have hbody : ∀ c ∈ sampleBody, isLineBreak c = false := fun c hc =>
    beq_iff_eq.mp (List.all_eq_true.mp hall c hc)
  exact ⟨hbody, readByForm hbody, by decide +kernel⟩

end InlineExpect
