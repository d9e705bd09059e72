import Mathlib
import InlineExpect.Proofs.Assertion.Ownership
import InlineExpect.Proofs.Comment.Terminated

/-!
# Assertions do not depend on the line terminator

A text whose lines end with LF asserts the same about the same lines when it is written with any
other terminator.  The scanner finds the same comments (`Comment.forall₂_scan_terminate`), and each
of them starts on the line on which it started, although not at the same offset.
-/

namespace InlineExpect

open Text

namespace Comment

variable {e : Terminator} {text : List Char} {c c' : Comment}

/-- A line comment makes the same assertion when the text has another terminator. -/
lemma IsTerminated.mark?_eq (h : IsTerminated e text c c')
    (hbody : c.isLine = true → ∀ d ∈ c.body, isLineBreak d = false) : c'.mark? = c.mark? := by
  have hline : c'.isLine = c.isLine := by rw [isLine, isLine, h.form_eq]
  unfold mark?
  rw [hline]
  by_cases hc : c.isLine = true
  · rw [h.body_eq, terminate_eq_self (hbody hc)]
  · rw [if_neg hc, if_neg hc]

/-- A comment starts on the same line when the text has another terminator. -/
lemma IsTerminated.lineOf_eq (h : IsTerminated e text c c') (htext : OnlyLf text) :
    (LineIndex.ofText (terminate e text)).lineOf c'.start =
      (LineIndex.ofText text).lineOf c.start := by
  obtain ⟨before, after, rfl, hstart, hstart'⟩ := h.start_eq
  have hbefore : OnlyLf before := fun d hd => htext d (List.mem_append_left _ hd)
  have hslash : ∀ ds : List Char, ('/' :: ds).head? ≠ some '\n' := fun ds hds =>
    absurd (Option.some.inj hds) (by decide)
  rw [terminate_append, terminate_cons (by decide), hstart, hstart',
    LineIndex.lineOf_byteLength fun _ => hslash _, LineIndex.lineOf_byteLength fun _ => hslash _,
    lineBreaks_terminate e hbefore]

/-- A comment makes the same assertion about the same line when the text has another terminator. -/
lemma IsTerminated.binding?_eq (h : IsTerminated e text c c') (htext : OnlyLf text)
    (hbody : c.isLine = true → ∀ d ∈ c.body, isLineBreak d = false) :
    c'.binding? (LineIndex.ofText (terminate e text)) = c.binding? (LineIndex.ofText text) := by
  have howning : c'.owningLine = c.owningLine := by
    funext line
    rw [owningLine, owningLine, h.firstOnLine_eq]
  unfold binding? LineIndex.bind
  rw [h.mark?_eq hbody, h.lineOf_eq htext, howning]

end Comment

/-- Two lists of comments that stand for each other make the same assertions. -/
lemma filterMap_binding?_eq {e : Terminator} {text : List Char} (htext : OnlyLf text)
    {cs cs' : List Comment} (h : List.Forall₂ (Comment.IsTerminated e text) cs cs')
    (hbody : ∀ c ∈ cs, c.isLine = true → ∀ d ∈ c.body, isLineBreak d = false) :
    cs'.filterMap (Comment.binding? (LineIndex.ofText (terminate e text))) =
      cs.filterMap (Comment.binding? (LineIndex.ofText text)) := by
  induction h with
  | nil => rfl
  | cons hc _ ih =>
    have hrest := ih fun c hmem => hbody c (List.mem_cons_of_mem _ hmem)
    rw [List.filterMap_cons, List.filterMap_cons,
      hc.binding?_eq htext (hbody _ List.mem_cons_self), hrest]

/-- A text whose lines end with LF makes the same assertions about the same lines when each LF is
replaced by another terminator. -/
theorem AssertionSet.extract_terminate (e : Terminator) (text : List Char) (hcr : '\r' ∉ text)
    (hls : '\u2028' ∉ text) (hps : '\u2029' ∉ text) :
    extract (terminate e text) = extract text := by
  have htext : OnlyLf text := .of_not_mem hcr hls hps
  have hbindings := filterMap_binding?_eq htext (Comment.forall₂_scan_terminate e htext)
    fun c hc hline => Comment.isLineBreak_of_mem_body hc hline
  rw [extract_eq_ofComments, extract_eq_ofComments, ofComments, ofComments, bindings_eq_filterMap,
    bindings_eq_filterMap, hbindings]

/-- A text with a string that goes on behind an escaped LF, a block comment over two lines, and
assertions above and behind a line. -/
def sampleLines : List Char :=
  "s = 'a\\\n//' /* b\n// $ExpectError */ // $ExpectError\n// $ExpectType c\nd".toList

/-- The sample lines make the same assertions when they end with CR LF. -/
theorem extract_terminate_sampleLines : '\r' ∉ sampleLines ∧ '\u2028' ∉ sampleLines ∧
    '\u2029' ∉ sampleLines ∧
    AssertionSet.extract (terminate .crlf sampleLines) = AssertionSet.extract sampleLines ∧
    AssertionSet.extract sampleLines =
      { types := [(4, "c")], errorLines := [2], duplicates := [] } := by
  have hcr : '\r' ∉ sampleLines := by decide
  have hls : '\u2028' ∉ sampleLines := by decide
  have hps : '\u2029' ∉ sampleLines := by decide
  exact ⟨hcr, hls, hps, AssertionSet.extract_terminate .crlf sampleLines hcr hls hps,
    by decide +kernel⟩

end InlineExpect
