import Mathlib
import InlineExpect.Proofs.Assertion.Extraction
import InlineExpect.Proofs.Assertion.Pattern
import InlineExpect.Proofs.Text.Boundary

/-!
# Texts without the marker

A text whose bytes do not contain those of the marker is not scanned at all.  Nothing is lost by
that: a pattern of a mark matches only a body with a keyword, every keyword begins with the marker,
and the body of a comment is a stretch of the text.  Since the marker is found among the bytes of a
text exactly where its characters stand (`Text.utf8_infix_utf8_iff`), none of its comments is a mark
then (`AssertionSet.extract_withoutMarker`).
-/

namespace InlineExpect

open Text

/-- A text has the marker if and only if its bytes have those of the marker. -/
lemma hasMarker_iff_utf8 {cs : List Char} : hasMarker cs = true ↔ utf8 marker <:+: utf8 cs :=
  hasMarker_iff.trans utf8_infix_utf8_iff.symm

/-- A body that the pattern of a mark matches has the marker. -/
lemma hasMarker_of_captures {kind : AssertionKind} {body : List Char}
    {groups : List (List Char)} (h : kind.pattern.captures body = some groups) :
    hasMarker body = true := by
  obtain ⟨a, ha⟩ : ∃ a : Pattern, kind.pattern =
      .seq (.many isBlank) (.seq (.text kind.keyword.toList) a) := by
    cases kind <;> exact ⟨_, rfl⟩
  rw [ha, AssertionKind.captures_seq, Option.bind_eq_some_iff] at h
  obtain ⟨rest, hrest, -⟩ := h
  exact hasMarker_of_afterKeyword? hrest

/-- A text need not be scanned without the marker, which is looked for among its bytes.  Where these
do not contain the bytes of the marker, no comment of the text is a mark, and no pattern of a mark
matches its body. -/
theorem AssertionSet.extract_withoutMarker (text : List Char) :
    extract text = ofComments text ∧
      (hasMarker text = true ↔ utf8 marker <:+: utf8 text) ∧
      ∀ c ∈ Comment.scan text, c.body <:+: text ∧
        (¬ utf8 marker <:+: utf8 text → Mark.ofBody? c.body = none ∧
          ∀ kind : AssertionKind, kind.pattern.captures c.body = none) := by
  refine ⟨extract_eq_ofComments text, hasMarker_iff_utf8, fun c hc => ?_⟩
  have hbody : c.body <:+: text := (Comment.occursIn_of_mem_scan hc).body_infix_text
  refine ⟨hbody, fun hmarker => ?_⟩
  have hnone : ¬ hasMarker c.body = true := by
    rw [← hasMarker_iff_utf8, hasMarker_iff] at hmarker
    rw [hasMarker_iff]
    exact fun h => hmarker (h.trans hbody)
  constructor
  · rw [Option.eq_none_iff_forall_ne_some]
    exact fun mark hmark => hnone (hasMarker_of_ofBody? hmark)
  · intro kind
    rw [Option.eq_none_iff_forall_ne_some]
    exact fun groups hgroups => hnone (hasMarker_of_captures hgroups)

end InlineExpect
