import Mathlib
import InlineExpect.Proofs.Text.LineTable

/-!
# Offsets and positions

A line index turns offsets into lines and columns, and lines into the offsets at which they start.
`RoundTrips` says how these lookups fit together, in terms of the lookups alone: what is said of the
table behind them is that any search for an offset in it leads to the same line (`Sought`).
`LineIndex.roundTrips_ofText` proves it for the index of every text.  All of it comes down to two
facts, that the line of an offset contains it (`Contains`), and that lines contain later offsets
than the lines before them (`Contains.le_of_le`).
-/

namespace InlineExpect

/-- What a search for an offset in an ascending table may answer: where the offset stands, or else
where it would have to be put in. -/
inductive Sought (starts : Array Nat) (pos : Nat) : Except Nat Nat → Prop
  | found {i : Nat} (h : starts[i]? = some pos) : Sought starts pos (.ok i)
  | missing {k : Nat} (hk : k ≤ starts.size)
      (hbefore : ∀ i s, i < k → starts[i]? = some s → s < pos)
      (hbehind : ∀ i s, k ≤ i → starts[i]? = some s → pos < s) : Sought starts pos (.error k)

/-- Positions are compared by their lines, and on one line by their columns. -/
def Position.key (p : Position) : Nat ×ₗ Nat := toLex (p.line, p.column)

namespace LineIndex

/-- A line encloses an offset if it starts there or before, and if it is the last line or the next
one starts behind the offset. -/
def Encloses (index : LineIndex) (line pos : Nat) : Prop :=
  ∃ start, index.lineStart line = .ok start ∧ start ≤ pos ∧
    (line + 1 = index.lineCount ∨ ∃ next, index.lineStart (line + 1) = .ok next ∧ pos < next)

/-- The lookups of an index of a text with some number of bytes are inverse to each other, and
ascend with the offsets. -/
structure RoundTrips (index : LineIndex) (size : Nat) : Prop where
  lineOf_eq_error_iff : ∀ pos e, index.lineOf pos = .error e ↔ size < pos ∧ e = .offset pos size
  /-- One line encloses an offset of the text, and this line is found. -/
  existsUnique_lineOf : ∀ pos ≤ size,
    ∃ line, index.lineOf pos = .ok line ∧ ∀ l, index.Encloses l pos ↔ l = line
  exists_sought : ∀ pos ≤ size, ∃ answer, Sought index.starts pos answer
  /-- The line is that on which a search stops, or the one before the place that it names, which is
  never the first. -/
  lineOf_of_found : ∀ pos ≤ size, ∀ i, Sought index.starts pos (.ok i) → index.lineOf pos = .ok i
  lineOf_of_missing : ∀ pos ≤ size, ∀ k, Sought index.starts pos (.error k) →
    0 < k ∧ index.lineOf pos = .ok (k - 1)
  positionOf_eq_error_iff : ∀ pos e,
    index.positionOf pos = .error e ↔ size < pos ∧ e = .offset pos size
  /-- The column counts from the start of the line, which does not stand behind the offset. -/
  positionOf_eq_ok_iff : ∀ pos p, index.positionOf pos = .ok p ↔
    pos ≤ size ∧ index.Encloses p.line pos ∧
      ∃ start, index.lineStart p.line = .ok start ∧ start + p.column = pos
  positionOf_injective : ∀ pos pos' p,
    index.positionOf pos = .ok p → index.positionOf pos' = .ok p → pos = pos'
  positionOf_strictMono : ∀ pos pos' p p', index.positionOf pos = .ok p →
    index.positionOf pos' = .ok p' → (pos < pos' ↔ p.key < p'.key)
  lineOf_lineStart : ∀ line < index.lineCount,
    ∃ start, index.lineStart line = .ok start ∧ index.lineOf start = .ok line
  lineStart_eq_error_iff : ∀ line e,
    index.lineStart line = .error e ↔ index.lineCount ≤ line ∧ e = .line line index.lineCount

section Lookups

variable {index : LineIndex} {line pos start : Nat} {p : Position} {e : LookupError}

/-- The start of a line is read from the table. -/
lemma lineStart_eq_ok_iff :
    index.lineStart line = .ok start ↔ index.starts[line]? = some start := by
  unfold lineStart
  cases index.starts[line]? <;> simp

/-- The line that encloses an offset is the one that contains it. -/
lemma encloses_iff_contains : index.Encloses line pos ↔ index.Contains line pos := by
  unfold Encloses Contains
  simp only [lineStart_eq_ok_iff]
  constructor
  · rintro ⟨start, hstart, hle, hlast | ⟨next, hnext, hlt⟩⟩
    · refine ⟨⟨start, hstart, hle⟩, ?_⟩
      intro next hnext
      have hsize := (Array.getElem?_eq_some_iff.mp hnext).1
      exact absurd hlast hsize.ne
    · refine ⟨⟨start, hstart, hle⟩, ?_⟩
      intro next' hnext'
      exact Option.some.inj (hnext.symm.trans hnext') ▸ hlt
  · rintro ⟨⟨start, hstart, hle⟩, hnext⟩
    have hsize : line < index.lineCount := (Array.getElem?_eq_some_iff.mp hstart).1
    refine ⟨start, hstart, hle, ?_⟩
    rcases (Nat.succ_le_of_lt hsize).eq_or_lt with hlast | hlt
    · exact .inl hlast
    · have hget := Array.getElem?_eq_getElem (show line + 1 < index.starts.size from hlt)
      exact .inr ⟨_, hget, hnext _ hget⟩

/-- The position of an offset consists of its line and of what is left from the start of that
line. -/
lemma positionOf_eq_map (index : LineIndex) (pos : Nat) : index.positionOf pos =
    (index.lineOf pos).map fun line => ⟨line, pos - index.starts.getD line 0⟩ := by
  unfold positionOf
  cases index.lineOf pos <;> rfl

/-- A position is not found if and only if the line is not. -/
lemma positionOf_eq_error_iff_lineOf :
    index.positionOf pos = .error e ↔ index.lineOf pos = .error e := by
  rw [positionOf_eq_map]
  cases index.lineOf pos <;> simp [Except.map]

/-- A position is found together with its line. -/
lemma positionOf_eq_ok_iff_lineOf : index.positionOf pos = .ok p ↔
    index.lineOf pos = .ok p.line ∧ pos - index.starts.getD p.line 0 = p.column := by
  obtain ⟨l, c⟩ := p
  rw [positionOf_eq_map]
  cases hline : index.lineOf pos with
  | error e => simp [Except.map]
  | ok line =>
    simp only [Except.map, Except.ok.injEq, Position.mk.injEq]
    apply and_congr_right
    intro h
    rw [h]

end Lookups

section Text

variable {text : List Char} {line pos pos' k : Nat} {p p' : Position}

/-- An offset of a text has a line. -/
lemma exists_lineOf_ofText (hpos : pos ≤ Text.byteLength text) :
    ∃ line, (ofText text).lineOf pos = .ok line := by
  rw [← size_ofText] at hpos
  exact exists_lineOf hpos

/-- The line of an offset of a text is the one that encloses it. -/
lemma lineOf_eq_ok_iff : (ofText text).lineOf pos = .ok line ↔
    pos ≤ Text.byteLength text ∧ (ofText text).Encloses line pos := by
  rw [encloses_iff_contains]
  constructor
  · intro h
    refine ⟨?_, contains_of_lineOf_eq_ok h⟩
    by_contra hlt
    have hlt' : (ofText text).size < pos := by
      rw [size_ofText]
      exact not_le.mp hlt
    rw [(lineOf_eq_error_iff _ pos _).mpr ⟨hlt', rfl⟩] at h
    cases h
  · rintro ⟨hpos, hcontains⟩
    exact lineOf_eq_ok_of_contains hpos hcontains

/-- An offset at which a line starts is an offset of that line. -/
lemma encloses_of_lineStart (h : (ofText text).starts[line]? = some pos) :
    (ofText text).Encloses line pos := by
  rw [encloses_iff_contains]
  exact ⟨⟨pos, h, le_rfl⟩, fun next hnext => starts_lt_starts text (Nat.lt_succ_self line) h hnext⟩

/-- An offset at which no line starts has a line before the place where it would have to be put
in. -/
lemma encloses_of_missing (h : Sought (ofText text).starts pos (.error k)) :
    0 < k ∧ (ofText text).Encloses (k - 1) pos := by
  obtain ⟨-⟩ | ⟨hk, hbefore, hbehind⟩ := h
  -- The first line starts at zero, and no offset would have to be put in before it.
  have hpos : 0 < k := by
    by_contra hzero
    exact Nat.not_lt_zero _ (hbehind 0 0 (not_lt.mp hzero) (starts_zero text))
  have hget := Array.getElem?_eq_getElem (show k - 1 < (ofText text).starts.size by omega)
  refine ⟨hpos, encloses_iff_contains.mpr ⟨⟨_, hget, ?_⟩, ?_⟩⟩
  · exact (hbefore (k - 1) _ (by omega) hget).le
  · intro next hnext
    exact hbehind (k - 1 + 1) next (by omega) hnext

/-- An offset of a line stands at its start, or would have to be put in behind it. -/
lemma exists_sought_of_contains (h : (ofText text).Contains line pos) :
    ∃ answer, Sought (ofText text).starts pos answer := by
  obtain ⟨⟨start, hstart, hle⟩, hnext⟩ := h
  rcases hle.eq_or_lt with rfl | hlt
  · exact ⟨_, .found hstart⟩
  have hsize := (Array.getElem?_eq_some_iff.mp hstart).1
  refine ⟨.error (line + 1), .missing hsize ?_ ?_⟩
  · intro i s hi hs
    rcases (Nat.le_of_lt_succ hi).eq_or_lt with rfl | hi
    · exact Option.some.inj (hstart.symm.trans hs) ▸ hlt
    · exact (starts_lt_starts text hi hs hstart).trans hlt
  · intro i s hi hs
    rcases hi.eq_or_lt with rfl | hi
    · exact hnext s hs
    · have hilt := (Array.getElem?_eq_some_iff.mp hs).1
      have hget := Array.getElem?_eq_getElem (hi.trans hilt)
      exact (hnext _ hget).trans (starts_lt_starts text hi hget hs)

/-- The column of an offset of a text counts from the start of the line that encloses it. -/
lemma positionOf_eq_ok_iff_encloses : (ofText text).positionOf pos = .ok p ↔
    pos ≤ Text.byteLength text ∧ (ofText text).Encloses p.line pos ∧
      ∃ start, (ofText text).lineStart p.line = .ok start ∧ start + p.column = pos := by
  rw [positionOf_eq_ok_iff_lineOf, lineOf_eq_ok_iff, and_assoc]
  refine and_congr_right fun _ => and_congr_right fun henclosed => ?_
  obtain ⟨start, hstart, hle, -⟩ := henclosed
  have hget : (ofText text).starts.getD p.line 0 = start := by
    rw [Array.getD_eq_getD_getElem?, lineStart_eq_ok_iff.mp hstart, Option.getD_some]
  rw [hget, hstart]
  constructor
  · intro hcolumn
    exact ⟨start, rfl, by omega⟩
  · rintro ⟨start', hstart', hsum⟩
    obtain rfl := Except.ok.inj hstart'
    omega

/-- Later offsets of a text have later positions. -/
lemma key_lt_key (hp : (ofText text).positionOf pos = .ok p)
    (hp' : (ofText text).positionOf pos' = .ok p') (hlt : pos < pos') : p.key < p'.key := by
  obtain ⟨-, henclosed, start, hstart, hsum⟩ := positionOf_eq_ok_iff_encloses.mp hp
  obtain ⟨-, henclosed', start', hstart', hsum'⟩ := positionOf_eq_ok_iff_encloses.mp hp'
  have hline : p.line ≤ p'.line :=
    (encloses_iff_contains.mp henclosed).le_of_le (encloses_iff_contains.mp henclosed') hlt.le
  unfold Position.key
  rw [Prod.Lex.toLex_lt_toLex]
  rcases hline.lt_or_eq with hline | hline
  · exact .inl hline
  · -- On one line both columns count from the same start.
    rw [hline, hstart'] at hstart
    obtain rfl := Except.ok.inj hstart
    exact .inr ⟨hline, by omega⟩

/-- A position belongs to one offset of a text. -/
lemma eq_of_positionOf_eq (hp : (ofText text).positionOf pos = .ok p)
    (hp' : (ofText text).positionOf pos' = .ok p) : pos = pos' := by
  rcases lt_trichotomy pos pos' with hlt | heq | hgt
  · exact absurd (key_lt_key hp hp' hlt) (lt_irrefl _)
  · exact heq
  · exact absurd (key_lt_key hp' hp hgt) (lt_irrefl _)

/-- Positions of a text are ordered as their offsets are. -/
lemma lt_iff_key_lt_key (hp : (ofText text).positionOf pos = .ok p)
    (hp' : (ofText text).positionOf pos' = .ok p') : pos < pos' ↔ p.key < p'.key := by
  refine ⟨key_lt_key hp hp', ?_⟩
  intro hkey
  rcases lt_trichotomy pos pos' with hlt | rfl | hgt
  · exact hlt
  · rw [hp] at hp'
    rw [Except.ok.inj hp'] at hkey
    exact absurd hkey (lt_irrefl _)
  · exact absurd (hkey.trans (key_lt_key hp' hp hgt)) (lt_irrefl _)

/-- The lookups of the index of a text are inverse to each other, and ascend with the offsets. -/
theorem roundTrips_ofText (text : List Char) :
    (ofText text).RoundTrips (Text.byteLength text) where
  lineOf_eq_error_iff pos e := by
    rw [lineOf_eq_error_iff, size_ofText]
  existsUnique_lineOf pos hpos := by
    obtain ⟨line, hline⟩ := exists_lineOf_ofText hpos
    refine ⟨line, hline, fun l => ⟨?_, ?_⟩⟩
    · intro hl
      have hlineOf := lineOf_eq_ok_iff.mpr ⟨hpos, hl⟩
      exact Except.ok.inj (hlineOf.symm.trans hline)
    · rintro rfl
      exact (lineOf_eq_ok_iff.mp hline).2
  exists_sought pos hpos := by
    obtain ⟨line, hline⟩ := exists_lineOf_ofText hpos
    exact exists_sought_of_contains (contains_of_lineOf_eq_ok hline)
  lineOf_of_found pos hpos i h := by
    obtain ⟨hget⟩ | _ := h
    exact lineOf_eq_ok_iff.mpr ⟨hpos, encloses_of_lineStart hget⟩
  lineOf_of_missing pos hpos k h := by
    obtain ⟨hk, henclosed⟩ := encloses_of_missing h
    exact ⟨hk, lineOf_eq_ok_iff.mpr ⟨hpos, henclosed⟩⟩
  positionOf_eq_error_iff pos e := by
    rw [positionOf_eq_error_iff_lineOf, lineOf_eq_error_iff, size_ofText]
  positionOf_eq_ok_iff pos p := positionOf_eq_ok_iff_encloses
  positionOf_injective pos pos' p hp hp' := eq_of_positionOf_eq hp hp'
  positionOf_strictMono pos pos' p p' hp hp' := lt_iff_key_lt_key hp hp'
  lineOf_lineStart line hline := by
    have hget := Array.getElem?_eq_getElem (show line < (ofText text).starts.size from hline)
    obtain ⟨rest, hrest⟩ := isBoundary_of_mem_starts (Array.mem_of_getElem? hget)
    exact ⟨_, lineStart_eq_ok_iff.mpr hget,
      lineOf_eq_ok_iff.mpr ⟨hrest.pos_le, encloses_of_lineStart hget⟩⟩
  lineStart_eq_error_iff line e := lineStart_eq_error_iff _ line e

/-- The LF of CR LF stands on the line that it ends, and the end of the text on an empty one. -/
example : (ofText "a\r\n".toList).positionOf 2 = .ok ⟨0, 2⟩ ∧
    (ofText "a\r\n".toList).positionOf 3 = .ok ⟨1, 0⟩ := by decide +kernel

end Text

end LineIndex

end InlineExpect
