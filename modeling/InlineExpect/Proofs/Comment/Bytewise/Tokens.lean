import Mathlib
import InlineExpect.Proofs.Comment.Bytewise.Progress

/-!
# The tokens of a text

Main statement: on every text of less than 4 GiB the bytewise scanner comes to the end
(`scansInto_scan`).  No iteration fails, each one comes further and stops at a boundary between two
characters, and the tokens are those of the comments that `scan` finds: one behind the other, each
with the delimiters of its form, and with a body that can be cut out of the text again.
-/

namespace InlineExpect.Comment.Bytewise

open Text

variable {text : List Char} {k : Comment}

/-! ### Bodies -/

/-- The end of a block comment is found in its bytes where it is in its text. -/
lemma isSuffixOf_star_slash_iff (cs : List Char) :
    List.isSuffixOf [0x2a, 0x2f] (utf8 cs) = true ↔ ['*', '/'] <:+ cs := by
  rw [List.isSuffixOf_iff_suffix]
  constructor
  · intro h
    have hbytes : utf8 ['*', '/'] <:+ utf8 cs := h
    exact suffix_of_utf8_suffix hbytes
  · rintro ⟨front, rfl⟩
    rw [utf8_append]
    exact List.suffix_append _ _

/-- What stands between the first two bytes of a comment and its end is read. -/
lemma body_eq_of_inner {start : Nat} {first : Bool} {form : Form} {body inner after : List Char}
    (h : SplitsAt text (start + 2) (inner ++ after))
    (hinner : byteLength inner = byteLength body + if form = .block true then 2 else 0) :
    (Token.ofComment ⟨form, start, body, first⟩).body (utf8 text) =
      if !(form == .line) && [0x2a, 0x2f].isSuffixOf (utf8 inner) then
        .ok ((utf8 inner).take ((utf8 inner).length - 2))
      else .ok (utf8 inner) := by
  have hstop : (Token.ofComment ⟨form, start, body, first⟩).span.stop =
      start + 2 + byteLength inner := by
    rw [hinner, Nat.add_assoc, ← byteLength_text form start body first]
    rfl
  have hslice : slice (utf8 text) ((Token.ofComment ⟨form, start, body, first⟩).span.start + 2)
      (start + 2 + byteLength inner) = .ok (utf8 inner) := slice_utf8 h
  rw [Token.body, hstop, hslice, ok_bind]
  rfl

/-- The body of a comment can be cut out of the text at its place. -/
lemma body_ofComment {after : List Char} (h : SplitsAt text k.start (k.text ++ after))
    (hk : k.Delimited after) : (Token.ofComment k).body (utf8 text) = .ok (utf8 k.body) := by
  obtain ⟨form, start, body, first⟩ := k
  match form with
  | .line =>
    have h₂ : SplitsAt text (start + 2) (body ++ after) := h.tail.tail
    rw [body_eq_of_inner h₂ (Nat.add_zero _).symm]
    rfl
  | .block true =>
    have h₂ : SplitsAt text (start + 2) ((body ++ ['*', '/']) ++ after) := h.tail.tail
    have hend : [0x2a, 0x2f].isSuffixOf (utf8 (body ++ ['*', '/'])) = true :=
      (isSuffixOf_star_slash_iff _).mpr (List.suffix_append _ _)
    have hlength : (utf8 (body ++ ['*', '/'])).length - 2 = (utf8 body).length := by
      rw [utf8_append, List.length_append]
      rfl
    rw [body_eq_of_inner h₂ (byteLength_append _ _), hend, if_pos (by decide), hlength, utf8_append,
      List.take_left]
  | .block false =>
    have h₂ : SplitsAt text (start + 2) (body ++ after) := h.tail.tail
    have hend : ¬ [0x2a, 0x2f].isSuffixOf (utf8 body) = true := by
      intro hsuffix
      exact hk.1 ((isSuffixOf_star_slash_iff body).mp hsuffix).isInfix
    rw [body_eq_of_inner h₂ (Nat.add_zero _).symm, Bool.eq_false_iff.mpr hend]
    rfl

/-! ### Whole texts -/

/-- A token covers a comment of the text, which is delimited as its form has it, and whose body can
be read. -/
def WellShaped (text : List Char) (t : Token) : Prop :=
  ∃ k before after, t = Token.ofComment k ∧ text = before ++ (k.text ++ after) ∧
    t.span = ⟨byteLength before, byteLength k.text⟩ ∧ k.Delimited after ∧
    t.body (utf8 text) = .ok (utf8 k.body)

/-- The bytewise scanner comes through a text and reports some tokens. -/
structure ScansInto (text : List Char) (tokens : List Token) : Prop where
  /-- Every state is at a boundary between two characters, or at an end of the text. -/
  isBoundary : ∀ s, Reached (utf8 text) s → IsBoundary text s.pos
  /-- From every state that is not at the end an iteration comes further. -/
  progress : ∀ s, Reached (utf8 text) s →
    s.pos = byteLength text ∧ step (utf8 text) s = .ok none ∨
      ∃ token? t, step (utf8 text) s = .ok (some (token?, t)) ∧ s.pos < t.pos
  /-- The iterations come to an end, and nothing fails. -/
  tokens_eq : Bytewise.tokens (utf8 text) = .ok tokens
  /-- The tokens begin one behind the other, and do not overlap. -/
  ordered : tokens.Pairwise fun t u => t.span.start < u.span.start ∧ t.span.stop ≤ u.span.start
  /-- The tokens have the shape of comments. -/
  wellShaped : ∀ t ∈ tokens, WellShaped text t

/-- On a text of less than 4 GiB the bytewise scanner reports the comments of the text. -/
theorem scansInto_scan (hlength : byteLength text < 2 ^ 32) :
    ScansInto text ((scan text).map Token.ofComment) where
  isBoundary := by
    intro s hs
    obtain ⟨rest, hrest⟩ := hs.standsBefore hlength
    exact hrest.splitsAt.isBoundary
  progress := by
    intro s hs
    obtain ⟨rest, hrest⟩ := hs.standsBefore hlength
    cases rest with
    | nil => exact .inl ⟨hrest.splitsAt.pos_add_byteLength, step_utf8_nil hrest.splitsAt⟩
    | cons c cs =>
      exact .inr ⟨_, _, step_utf8 hrest.splitsAt hrest.soundAt hlength, pos_lt_after s _ c _⟩
  tokens_eq := tokens_utf8 hlength
  ordered := by
    rw [List.pairwise_map]
    exact (pairwise_scan text).and (pairwise_stop_scan text)
  wellShaped := by
    intro t ht
    obtain ⟨k, hk, rfl⟩ := List.mem_map.mp ht
    obtain ⟨before, after, htext, hstart, hdelimited⟩ := delimitedIn_of_mem_scan hk
    rw [Nat.zero_add] at hstart
    refine ⟨k, before, after, rfl, htext, ?_, hdelimited, ?_⟩
    · rw [← hstart]
      rfl
    · exact body_ofComment ⟨before, htext, hstart.symm⟩ hdelimited

/-- A text with an interpreter line, characters of up to four bytes, a stray brace, a regular
expression, nested templates and a block comment that is not closed. -/
def sampleText : List Char :=
  "#!é\r\n\x7d /[/]€/u // ü\u2028\x60𝒳$\x7b \x7b \x7d /* ä */ \x60\\\x60 // no\x60 /*/".toList

/-- Three comments are reported, of which the last one is not closed. -/
theorem scansInto_sampleText : byteLength sampleText < 2 ^ 32 ∧
    ScansInto sampleText
      [⟨true, ⟨18, 5⟩, false⟩, ⟨false, ⟨38, 8⟩, false⟩, ⟨false, ⟨58, 3⟩, false⟩] := by
  have hlength : byteLength sampleText = 61 := by decide +kernel
  have hlt : byteLength sampleText < 2 ^ 32 := by
    rw [hlength]
    norm_num
  have htokens : (scan sampleText).map Token.ofComment =
      [⟨true, ⟨18, 5⟩, false⟩, ⟨false, ⟨38, 8⟩, false⟩, ⟨false, ⟨58, 3⟩, false⟩] := by
    decide +kernel
  refine ⟨hlt, ?_⟩
  rw [← htokens]
  exact scansInto_scan hlt

end InlineExpect.Comment.Bytewise
