import Mathlib
import InlineExpect.Proofs.Text.Boundary
import InlineExpect.Proofs.Text.LastLine

/-!
# The line table of a text

The line index reads bytes and keeps a table of offsets.  What the table says of the text is a
matter of characters: `IsLineTable` states it without bytes, and `LineIndex.isLineTable_ofText`
proves it of the table of every text.  An offset inside of a character is none at which a line
starts, whatever bytes stand before it.
-/

namespace InlineExpect

namespace Text

/-- A line ends between two parts of a text: behind LF or a separator, or behind CR unless LF
follows. -/
def EndsLineBetween (before after : List Char) : Prop :=
  ∃ c ∈ before.getLast?, c = '\n' ∨ c = '\u2028' ∨ c = '\u2029' ∨
    (c = '\r' ∧ after.head? ≠ some '\n')

/-- The offsets at which the lines of a text start, one behind the other. -/
structure IsLineTable (text : List Char) (starts : List Nat) : Prop where
  head?_eq : starts.head? = some 0
  ascending : starts.Pairwise (· < ·)
  isBoundary : ∀ s ∈ starts, IsBoundary text s
  le_byteLength : ∀ s ∈ starts, s ≤ byteLength text
  /-- Behind the first line a line starts where the text before it ends one. -/
  mem_iff : ∀ p, 0 < p → (p ∈ starts ↔
    ∃ before after, text = before ++ after ∧ byteLength before = p ∧ EndsLineBetween before after)
  /-- A line starts behind each line break, where CR LF is one, and behind no other character. -/
  mem_behind_iff : ∀ before c after, text = before ++ c :: after →
    (byteLength before + c.utf8Size ∈ starts ↔
      isLineBreak c = true ∧ ¬ (c = '\r' ∧ after.head? = some '\n'))

/-- A line ends between two parts of a text if the first part ends a line. -/
lemma endsLineBetween_iff {before after : List Char} :
    EndsLineBetween before after ↔ EndsLine before after := by
  have key : ∀ c : Char, (c = '\n' ∨ c = '\u2028' ∨ c = '\u2029' ∨
      (c = '\r' ∧ after.head? ≠ some '\n')) ↔
      isLineBreak c = true ∧ ¬ (c = '\r' ∧ after.head? = some '\n') := by
    intro c
    simp only [isLineBreak, Bool.or_eq_true, beq_iff_eq]
    constructor
    · rintro (rfl | rfl | rfl | ⟨rfl, hlf⟩)
      · simp
      · simp
      · simp
      · exact ⟨.inl (.inl (.inr rfl)), fun h => hlf h.2⟩
    · rintro ⟨((rfl | rfl) | rfl) | rfl, hcrlf⟩
      · exact .inl rfl
      · exact .inr (.inr (.inr ⟨rfl, fun h => hcrlf ⟨rfl, h⟩⟩))
      · exact .inr (.inl rfl)
      · exact .inr (.inr (.inl rfl))
  constructor
  · rintro ⟨c, hc, hends⟩
    exact ⟨c, hc, (key c).mp hends⟩
  · rintro ⟨c, hc, hends⟩
    exact ⟨c, hc, (key c).mpr hends⟩

/-- Whether a line starts behind a character is decided by that character and the next one. -/
lemma lineStartsAt_behind_iff {before after : List Char} {c : Char} :
    LineStartsAt 0 (before ++ c :: after) (byteLength before + c.utf8Size) ↔
      isLineBreak c = true ∧ ¬ (c = '\r' ∧ after.head? = some '\n') := by
  have hsize : byteLength (before ++ [c]) = byteLength before + c.utf8Size := byteLength_append _ _
  have hsplit : before ++ c :: after = (before ++ [c]) ++ after := List.append_cons _ _ _
  rw [← endsLine_singleton_iff, ← endsLine_append before (List.cons_ne_nil c [])]
  constructor
  · rintro ⟨piece, rest, htext, hends, hp⟩
    rw [Nat.zero_add, ← hsize] at hp
    rw [hsplit] at htext
    obtain ⟨rfl, rfl⟩ := append_inj_of_byteLength_eq htext hp
    exact hends
  · intro hends
    exact ⟨before ++ [c], after, hsplit, hends, by rw [hsize, Nat.zero_add]⟩

/-- A line starts at a boundary. -/
lemma LineStartsAt.isBoundary {text : List Char} {p : Nat} (h : LineStartsAt 0 text p) :
    IsBoundary text p := by
  obtain ⟨piece, rest, rfl, -, rfl⟩ := h
  exact ⟨rest, piece, rfl, (Nat.zero_add _).symm⟩

end Text

namespace LineIndex

open Text

/-- The offsets that the index of a text keeps are boundaries of the text. -/
lemma isBoundary_of_mem_starts {text : List Char} {s : Nat} (h : s ∈ (ofText text).starts) :
    IsBoundary text s := by
  rcases mem_starts_iff.mp h with rfl | hstarts
  · exact ⟨text, .zero text⟩
  · exact hstarts.isBoundary

/-- The index of a text keeps the line table of the text, in which every offset of a text of less
than 2³² bytes fits into 32 bits. -/
theorem isLineTable_ofText (text : List Char) (h : byteLength text < 2 ^ 32) :
    IsLineTable text (ofText text).starts.toList ∧
      ∀ s ∈ (ofText text).starts, (UInt32.ofNat s).toNat = s := by
  have hle : ∀ s ∈ (ofText text).starts, s ≤ byteLength text := by
    intro s hs
    obtain ⟨rest, hrest⟩ := isBoundary_of_mem_starts hs
    exact hrest.pos_le
  refine ⟨⟨rfl, ?_, ?_, ?_, ?_, ?_⟩, ?_⟩
  · exact List.isChain_iff_pairwise.mp (isChain_startsAfter 0 (utf8 text))
  · intro s hs
    exact isBoundary_of_mem_starts (Array.mem_toList_iff.mp hs)
  · intro s hs
    exact hle s (Array.mem_toList_iff.mp hs)
  · intro p hp
    rw [Array.mem_toList_iff, mem_starts_iff, or_iff_right hp.ne']
    constructor
    · rintro ⟨before, after, htext, hends, rfl⟩
      exact ⟨before, after, htext, (Nat.zero_add _).symm, endsLineBetween_iff.mpr hends⟩
    · rintro ⟨before, after, htext, rfl, hends⟩
      exact ⟨before, after, htext, endsLineBetween_iff.mp hends, (Nat.zero_add _).symm⟩
  · rintro before c after rfl
    have hpos := c.utf8Size_pos
    rw [Array.mem_toList_iff, mem_starts_iff, or_iff_right (by omega), lineStartsAt_behind_iff]
  · intro s hs
    exact UInt32.toNat_ofNat_of_lt' ((hle s hs).trans_lt h)

/-- A line separator between characters that share some of its bytes, CR LF, and CR at the end. -/
def sampleSeparators : List Char := "\u2027\u2028\u3028\u20a8é\r\n\r".toList

/-- Of the characters of the sample three start a line. -/
theorem isLineTable_sampleSeparators :
    byteLength sampleSeparators < 2 ^ 32 ∧
      (ofText sampleSeparators).starts.toList = [0, 6, 16, 17] ∧
      IsLineTable sampleSeparators (ofText sampleSeparators).starts.toList ∧
      ∀ s ∈ (ofText sampleSeparators).starts, (UInt32.ofNat s).toNat = s := by
  have hlen : byteLength sampleSeparators = 17 := by decide +kernel
  have hlt : byteLength sampleSeparators < 2 ^ 32 := by
    rw [hlen]
    norm_num
  exact ⟨hlt, by decide +kernel, isLineTable_ofText sampleSeparators hlt⟩

end LineIndex

end InlineExpect
