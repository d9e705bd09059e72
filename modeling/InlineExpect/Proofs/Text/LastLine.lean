import Mathlib
import InlineExpect.Proofs.Text.LineStarts

/-!
# The line that is being read

A reader that has got to some place of a text is on a line of which it has read `Text.lastLine`, the
characters behind the last line break.  The line index of the whole text agrees: it finds the start
of the line in front of these characters, unless the place is one between a CR and its LF
(`LineIndex.exists_lineStart`).
-/

namespace InlineExpect

namespace Text

/-- The characters of a text behind its last line break. -/
def lastLine (cs : List Char) : List Char := cs.rtakeWhile fun c => !isLineBreak c

/-- A text up to its last line break. -/
def earlierLines (cs : List Char) : List Char := cs.rdropWhile fun c => !isLineBreak c

/-- A text is its earlier lines and its last one. -/
lemma earlierLines_append_lastLine (cs : List Char) : earlierLines cs ++ lastLine cs = cs :=
  List.rdropWhile_append_rtakeWhile

/-- A line break ends the line. -/
lemma lastLine_concat_of_lineBreak {c : Char} (hc : isLineBreak c = true) (cs : List Char) :
    lastLine (cs ++ [c]) = [] :=
  List.rtakeWhile_concat_neg _ _ _ (by rw [hc]; exact Bool.false_ne_true)

/-- Any other character goes on with the line. -/
lemma lastLine_concat {c : Char} (hc : isLineBreak c = false) (cs : List Char) :
    lastLine (cs ++ [c]) = lastLine cs ++ [c] :=
  List.rtakeWhile_concat_pos _ _ _ (by rw [hc]; rfl)

/-- There is no line break in the last line. -/
lemma isLineBreak_of_mem_lastLine {c : Char} {cs : List Char} (h : c ∈ lastLine cs) :
    isLineBreak c = false := by
  simpa using List.mem_rtakeWhile_imp h

/-- The earlier lines end with a line break. -/
lemma isLineBreak_of_getLast?_earlierLines {c : Char} {cs : List Char}
    (h : (earlierLines cs).getLast? = some c) : isLineBreak c = true := by
  have hne : earlierLines cs ≠ [] := by
    intro hnil
    rw [hnil] at h
    cases h
  have hlast : (earlierLines cs).getLast hne = c := by
    rw [List.getLast?_eq_some_getLast hne] at h
    exact Option.some.inj h
  have hnot : ¬ (!isLineBreak ((earlierLines cs).getLast hne)) = true :=
    List.rdropWhile_last_not _ cs hne
  rw [hlast] at hnot
  simpa using hnot

/-- Of two beginnings of a text the one with fewer bytes is a beginning of the other. -/
lemma prefix_of_byteLength_le {cs ds rest rest' : List Char} (h : cs ++ rest = ds ++ rest')
    (hle : byteLength cs ≤ byteLength ds) : cs <+: ds := by
  obtain ⟨more, rfl, -⟩ | ⟨more, rfl, -⟩ := List.append_eq_append_iff.mp h
  · exact List.prefix_append cs more
  · cases more with
    | nil => rw [List.append_nil]
    | cons c more =>
      have hpos := c.utf8Size_pos
      rw [byteLength_append, byteLength_cons] at hle
      omega

/-- Two beginnings of a text with the same number of bytes are the same. -/
lemma append_inj_of_byteLength_eq {cs ds rest rest' : List Char} (h : cs ++ rest = ds ++ rest')
    (hlen : byteLength cs = byteLength ds) : cs = ds ∧ rest = rest' := by
  have hle : cs.length ≤ ds.length := (prefix_of_byteLength_le h hlen.le).length_le
  have hge : ds.length ≤ cs.length := (prefix_of_byteLength_le h.symm hlen.ge).length_le
  exact List.append_inj h (le_antisymm hle hge)

end Text

namespace LineIndex

open Text

variable {before after : List Char}

/-- A line starts behind the earlier lines of what has been read. -/
lemma earlierLines_mem_starts (h : ∀ c ∈ after.head?, c ≠ '\n') :
    byteLength (earlierLines before) ∈ (ofText (before ++ after)).starts := by
  rw [mem_starts_iff]
  cases hlast : (earlierLines before).getLast? with
  | none =>
    rw [List.getLast?_eq_none_iff.mp hlast]
    exact .inl rfl
  | some c =>
    refine .inr ⟨earlierLines before, lastLine before ++ after, ?_, ?_, (Nat.zero_add _).symm⟩
    · rw [← List.append_assoc, earlierLines_append_lastLine]
    · refine ⟨c, hlast, isLineBreak_of_getLast?_earlierLines hlast, fun hcrlf => ?_⟩
      -- Neither the last line nor what follows it begins with LF.
      obtain ⟨-, hlf⟩ := hcrlf
      cases hline : lastLine before with
      | nil =>
        rw [hline, List.nil_append] at hlf
        exact h _ hlf rfl
      | cons d ds =>
        rw [hline] at hlf
        obtain rfl : d = '\n' := Option.some.inj hlf
        have hbreak := isLineBreak_of_mem_lastLine (hline ▸ List.mem_cons_self)
        exact absurd hbreak (by decide)

/-- No line starts between the earlier lines and the end of what has been read. -/
lemma not_lineStartsAt_lastLine {p : Nat} (hp : LineStartsAt 0 (before ++ after) p)
    (hlt : byteLength (earlierLines before) < p) : byteLength before < p := by
  obtain ⟨piece, rest, htext, ⟨c, hc, hbreak, -⟩, rfl⟩ := hp
  rw [Nat.zero_add] at hlt ⊢
  by_contra hle
  -- The line that ends with the piece would end in the last line.
  obtain ⟨more, hmore⟩ := prefix_of_byteLength_le htext.symm (not_lt.mp hle)
  rw [← earlierLines_append_lastLine before] at hmore
  obtain ⟨tail, rfl⟩ := prefix_of_byteLength_le hmore.symm hlt.le
  rw [List.append_assoc] at hmore
  have htail : tail ≠ [] := by
    rintro rfl
    rw [List.append_nil] at hlt
    exact lt_irrefl _ hlt
  have hmem : c ∈ lastLine before := by
    rw [← List.append_cancel_left hmore]
    rw [List.getLast?_append_of_ne_nil _ htail] at hc
    exact List.mem_append_left _ (List.mem_of_getLast? hc)
  rw [isLineBreak_of_mem_lastLine hmem] at hbreak
  exact Bool.false_ne_true hbreak

/-- The line of the place up to which a text has been read starts behind the earlier lines. -/
theorem exists_lineStart (h : ∀ c ∈ after.head?, c ≠ '\n') :
    ∃ line, (ofText (before ++ after)).lineOf (byteLength before) = .ok line ∧
      (ofText (before ++ after)).lineStart line = .ok (byteLength (earlierLines before)) := by
  obtain ⟨line, hline⟩ := Array.mem_iff_getElem?.mp (earlierLines_mem_starts h)
  have hsplit := congrArg byteLength (earlierLines_append_lastLine before)
  rw [byteLength_append] at hsplit
  refine ⟨line, lineOf_eq_ok_of_contains ?_ ⟨⟨_, hline, by omega⟩, fun next hnext => ?_⟩, ?_⟩
  · rw [byteLength_append]
    exact Nat.le_add_right _ _
  · have hlt := starts_lt_starts _ (Nat.lt_succ_self line) hline hnext
    rcases mem_starts_iff.mp (Array.mem_of_getElem? hnext) with rfl | hstarts
    · exact absurd hlt (Nat.not_lt_zero _)
    · exact not_lineStartsAt_lastLine hstarts hlt
  · rw [lineStart, hline]

end LineIndex

end InlineExpect
