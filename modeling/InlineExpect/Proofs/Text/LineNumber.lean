import Mathlib
import InlineExpect.Proofs.Text.LineStarts

/-!
# Counting lines

The line of an offset is the number of lines that end before it.  `Text.lineBreaks` counts the line
breaks of a text, CR LF as one of them, and `LineIndex.lineOf_byteLength` says that a line index
counts in the same way, wherever a text is cut, unless between a CR and its LF.
-/

namespace InlineExpect

namespace Text

/-- The number of lines that end in a text. -/
def lineBreaks (cs : List Char) : Nat := (lineStartsFrom 0 cs).length

/-- Where a text begins does not matter for the number of its lines. -/
lemma length_lineStartsFrom (pos : Nat) (cs : List Char) :
    (lineStartsFrom pos cs).length = lineBreaks cs := by
  have key : ∀ p q : Nat, (lineStartsFrom p cs).length = (lineStartsFrom q cs).length := by
    intro p
    fun_induction lineStartsFrom p cs with
    | case1 p => exact fun q => rfl
    | case2 p cs ih =>
      intro q
      rw [lineStartsFrom.eq_2, List.length_cons, List.length_cons, ih]
    | case3 p c cs hcrlf hbreak ih =>
      intro q
      rw [lineStartsFrom.eq_3 _ _ _ hcrlf, if_pos hbreak, List.length_cons, List.length_cons, ih]
    | case4 p c cs hcrlf hbreak ih =>
      intro q
      rw [lineStartsFrom.eq_3 _ _ _ hcrlf, if_neg hbreak, ih]
  exact key pos 0

/-- CR and LF together end one line. -/
lemma lineBreaks_crlf (cs : List Char) :
    lineBreaks ('\r' :: '\n' :: cs) = lineBreaks cs + 1 := by
  rw [lineBreaks, lineStartsFrom.eq_2, List.length_cons, length_lineStartsFrom]

/-- Any other line break ends a line by itself. -/
lemma lineBreaks_cons_of_lineBreak {c : Char} {cs : List Char} (hc : isLineBreak c = true)
    (hcrlf : c = '\r' → cs.head? ≠ some '\n') :
    lineBreaks (c :: cs) = lineBreaks cs + 1 := by
  have hne : ∀ ds, c = '\r' → cs = '\n' :: ds → False := by
    rintro ds hr rfl
    exact hcrlf hr rfl
  rw [lineBreaks, lineStartsFrom.eq_3 _ _ _ hne, if_pos hc, List.length_cons,
    length_lineStartsFrom]

/-- No line ends with any other character. -/
lemma lineBreaks_cons_of_not_lineBreak {c : Char} (hc : isLineBreak c = false) (cs : List Char) :
    lineBreaks (c :: cs) = lineBreaks cs := by
  have hne : ∀ ds, c = '\r' → cs = '\n' :: ds → False := by
    rintro ds rfl
    exact absurd hc (by decide)
  rw [lineBreaks, lineStartsFrom.eq_3 _ _ _ hne, hc, if_neg Bool.false_ne_true,
    length_lineStartsFrom]

/-- The lines of a text that is cut in two are those of its parts, unless it is cut between a CR and
its LF. -/
lemma lineStartsFrom_append (pos : Nat) {cs ds : List Char}
    (h : cs.getLast? = some '\r' → ds.head? ≠ some '\n') :
    lineStartsFrom pos (cs ++ ds) =
      lineStartsFrom pos cs ++ lineStartsFrom (pos + byteLength cs) ds := by
  fun_induction lineStartsFrom pos cs with
  | case1 pos => rfl
  | case2 pos cs ih =>
    have hcs : cs.getLast? = some '\r' → ds.head? ≠ some '\n' := by
      intro hlast
      exact h (by rw [List.getLast?_cons, List.getLast?_cons, hlast]; rfl)
    have hsize : byteLength ('\r' :: '\n' :: cs) = 2 + byteLength cs := by
      rw [byteLength_cons, byteLength_cons, ← Nat.add_assoc]
      rfl
    rw [List.cons_append, List.cons_append, lineStartsFrom.eq_2, ih hcs, hsize, Nat.add_assoc]
    rfl
  | case3 pos c cs hcrlf hbreak ih =>
    have hcs : cs.getLast? = some '\r' → ds.head? ≠ some '\n' := by
      intro hlast
      exact h (by rw [List.getLast?_cons, hlast]; rfl)
    have hne : ∀ rest, c = '\r' → cs ++ ds = '\n' :: rest → False := by
      intro rest hr heq
      cases cs with
      | nil => exact h (by rw [hr]; rfl) (by rw [← List.nil_append ds, heq]; rfl)
      | cons d cs => exact hcrlf cs hr (by rw [(List.cons.inj heq).1])
    rw [List.cons_append, lineStartsFrom.eq_3 _ _ _ hne, if_pos hbreak, ih hcs, byteLength_cons,
      Nat.add_assoc]
    rfl
  | case4 pos c cs hcrlf hbreak ih =>
    have hcs : cs.getLast? = some '\r' → ds.head? ≠ some '\n' := by
      intro hlast
      exact h (by rw [List.getLast?_cons, hlast]; rfl)
    have hne : ∀ rest, c = '\r' → cs ++ ds = '\n' :: rest → False := by
      rintro rest rfl
      exact absurd rfl hbreak
    rw [List.cons_append, lineStartsFrom.eq_3 _ _ _ hne, if_neg hbreak, ih hcs, byteLength_cons,
      Nat.add_assoc]

/-- The lines that end in a text that is cut in two end in its parts. -/
lemma lineBreaks_append {cs ds : List Char}
    (h : cs.getLast? = some '\r' → ds.head? ≠ some '\n') :
    lineBreaks (cs ++ ds) = lineBreaks cs + lineBreaks ds := by
  rw [lineBreaks, lineStartsFrom_append 0 h, List.length_append, length_lineStartsFrom,
    length_lineStartsFrom]

/-- No line ends in a text without line breaks. -/
lemma lineBreaks_eq_zero {cs : List Char} (h : ∀ c ∈ cs, isLineBreak c = false) :
    lineBreaks cs = 0 := by
  induction cs with
  | nil => rfl
  | cons c cs ih =>
    rw [lineBreaks_cons_of_not_lineBreak (h c List.mem_cons_self)]
    exact ih fun d hd => h d (List.mem_cons_of_mem c hd)

end Text

namespace LineIndex

open Text

/-- The line of an offset is the number of lines that end before it. -/
theorem lineOf_byteLength {before after : List Char}
    (h : before.getLast? = some '\r' → after.head? ≠ some '\n') :
    (ofText (before ++ after)).lineOf (byteLength before) = .ok (lineBreaks before) := by
  have hstarts : (ofText (before ++ after)).starts.toList =
      (0 :: lineStartsFrom 0 before) ++ lineStartsFrom (byteLength before) after := by
    have hsplit := lineStartsFrom_append 0 h
    rw [Nat.zero_add] at hsplit
    rw [List.cons_append, ← hsplit, ← startsAfter_utf8]
    rfl
  have hlen : (0 :: lineStartsFrom 0 before).length = lineBreaks before + 1 := rfl
  refine lineOf_eq_ok_of_contains ?_ ⟨?_, fun next hnext => ?_⟩
  · rw [byteLength_append]
    exact Nat.le_add_right _ _
  · -- The last line that starts in the first part, or the first line if there is none.
    have hlt : lineBreaks before < (0 :: lineStartsFrom 0 before).length := by omega
    refine ⟨(0 :: lineStartsFrom 0 before)[lineBreaks before], ?_, ?_⟩
    · rw [← Array.getElem?_toList, hstarts, List.getElem?_append_left hlt,
        List.getElem?_eq_getElem hlt]
    · rcases List.mem_cons.mp (List.getElem_mem hlt) with hzero | hmem
      · rw [hzero]
        exact Nat.zero_le _
      · obtain ⟨piece, rest, hbefore, -, hp⟩ := mem_lineStartsFrom_iff.mp hmem
        rw [hp, hbefore, byteLength_append, Nat.zero_add]
        exact Nat.le_add_right _ _
  · rw [← Array.getElem?_toList, hstarts, ← hlen, List.getElem?_append_right le_rfl] at hnext
    obtain ⟨piece, rest, -, hends, hp⟩ :=
      mem_lineStartsFrom_iff.mp (List.mem_of_getElem? hnext)
    obtain ⟨c, cs, rfl⟩ := List.exists_cons_of_ne_nil hends.ne_nil
    have hpos := c.utf8Size_pos
    rw [hp, byteLength_cons]
    omega

end LineIndex

end InlineExpect
