import Mathlib
import InlineExpect.Proofs.Assertion.Form
import InlineExpect.Proofs.Comment.PlainCode

/-!
# Writing assertions

How assertions are written into a text: a mark as the body of a comment, with spaces around it, a
comment on a line of its own or behind code, and lines that are joined by LF.  `SourceLine.declared`
says what such lines assert.  A mark is read back from the way it is written
(`WrittenMark.ofBody?_body`).
-/

namespace InlineExpect

open Text Comment

/-! ### Marks -/

/-- A mark with the numbers of the spaces around it. -/
structure WrittenMark where
  mark : Mark
  /-- The spaces before the keyword. -/
  before : Nat := 1
  /-- The spaces between the keyword and the expected type, beyond the one that has to be there. -/
  gap : Nat := 0
  /-- The spaces at the end. -/
  after : Nat := 0
deriving DecidableEq, Repr

/-- A run of spaces. -/
def spaces (n : Nat) : List Char := List.replicate n ' '

/-- A space is white space. -/
lemma isBlank_of_mem_spaces {n : Nat} : ∀ c ∈ spaces n, isBlank c = true := by
  intro c hc
  rw [List.eq_of_mem_replicate hc]
  decide

/-- A space is no line break. -/
lemma isLineBreak_of_mem_spaces {n : Nat} : ∀ c ∈ spaces n, isLineBreak c = false := by
  intro c hc
  rw [List.eq_of_mem_replicate hc]
  decide

/-- A text that is written as the type of an assertion: it is not empty, stays on its line and
neither begins nor ends with white space. -/
structure IsTypeText (cs : List Char) : Prop where
  ne_nil : cs ≠ []
  isLineBreak_eq : ∀ c ∈ cs, isLineBreak c = false
  head_eq : ∀ c ∈ cs.head?, isBlank c = false
  last_eq : ∀ c ∈ cs.getLast?, isBlank c = false

namespace WrittenMark

/-- A written mark is well formed if its expected type is. -/
def WellFormed (w : WrittenMark) : Prop :=
  match w.mark with
  | .type expected => IsTypeText expected
  | .error => True

/-- What stands behind the keyword. -/
def argument (w : WrittenMark) : List Char :=
  match w.mark with
  | .type expected => ' ' :: (spaces w.gap ++ expected)
  | .error => []

/-- The body of the comment. -/
def body (w : WrittenMark) : List Char :=
  spaces w.before ++ (w.mark.kind.keyword.toList ++ (w.argument ++ spaces w.after))

/-- The comment. -/
def render (w : WrittenMark) : List Char := '/' :: '/' :: w.body

variable {w : WrittenMark}

/-- A keyword has no line break in it. -/
lemma isLineBreak_of_mem_keyword (kind : AssertionKind) :
    ∀ c ∈ kind.keyword.toList, isLineBreak c = false := by
  cases kind <;> simp [AssertionKind.keyword, isLineBreak]

/-- The comment stays on its line. -/
lemma isLineBreak_of_mem_body (hw : w.WellFormed) : ∀ c ∈ w.body, isLineBreak c = false := by
  intro c hc
  simp only [body, List.mem_append] at hc
  rcases hc with hc | hc | hc | hc
  · exact isLineBreak_of_mem_spaces c hc
  · exact isLineBreak_of_mem_keyword w.mark.kind c hc
  · unfold WellFormed at hw
    unfold argument at hc
    cases hmark : w.mark with
    | type expected =>
      rw [hmark] at hw hc
      simp only [List.mem_cons, List.mem_append] at hc
      rcases hc with rfl | hc | hc
      · decide
      · exact isLineBreak_of_mem_spaces c hc
      · exact hw.isLineBreak_eq c hc
    | error =>
      rw [hmark] at hc
      exact absurd hc List.not_mem_nil
  · exact isLineBreak_of_mem_spaces c hc

/-- A mark is written in its form, so that it is read back. -/
theorem ofBody?_body (hw : w.WellFormed) : Mark.ofBody? w.body = some w.mark := by
  obtain ⟨mark, before, gap, after⟩ := w
  cases mark with
  | type expected =>
    have htype : IsTypeText expected := hw
    have hbody : body ⟨.type expected, before, gap, after⟩ = spaces before ++
        ("$ExpectType".toList ++ (spaces (gap + 1) ++ (expected ++ spaces after))) := by
      rw [← List.append_assoc _ expected]
      rfl
    exact Mark.ofBody?_eq_type_iff.mpr ⟨htype.ne_nil, htype.head_eq, htype.last_eq,
      spaces before, spaces (gap + 1), spaces after, isBlank_of_mem_spaces, isBlank_of_mem_spaces,
      isBlank_of_mem_spaces, List.cons_ne_nil _ _, hbody⟩
  | error =>
    exact Mark.ofBody?_eq_error_iff.mpr
      ⟨spaces before, spaces after, isBlank_of_mem_spaces, isBlank_of_mem_spaces, rfl⟩

end WrittenMark

/-! ### Lines -/

/-- A line of a text with assertions. -/
inductive SourceLine where
  /-- A comment on a line of its own, which may be indented. -/
  | standalone (indent : List Char) (written : WrittenMark)
  /-- Code, and perhaps a comment behind it. -/
  | code (chars : List Char) (trailing : Option WrittenMark)
deriving DecidableEq, Repr

namespace SourceLine

/-- What stands before the comment. -/
def chars : SourceLine → List Char
  | standalone indent _ => indent
  | code chars _ => chars

/-- The mark of the line, if it has one. -/
def written? : SourceLine → Option WrittenMark
  | standalone _ w => some w
  | code _ trailing => trailing

/-- The line as it is written. -/
def render (l : SourceLine) : List Char := l.chars ++ (l.written?.map WrittenMark.render).getD []

/-- An indentation consists of spaces and tabs.  Code is plain, and has a character that is no blank
where a comment stands behind it. -/
def WellFormed : SourceLine → Prop
  | standalone indent w => (∀ c ∈ indent, c = ' ' ∨ c = '\t') ∧ w.WellFormed
  | code chars trailing => (∀ c ∈ chars, IsPlain c) ∧
      ∀ w ∈ trailing, (∃ c ∈ chars, isInlineBlank c = false) ∧ w.WellFormed

/-- What the line with a number asserts: a comment on a line of its own is about the next line, one
behind code about the line itself. -/
def binding? (number : Nat) : SourceLine → Option Binding
  | standalone _ w => some ⟨number + 1, w.mark⟩
  | code _ trailing => trailing.map fun w => ⟨number, w.mark⟩

/-- What lines assert, the first of which has a number. -/
def declared (number : Nat) : List SourceLine → List Binding
  | [] => []
  | l :: ls => (l.binding? number).toList ++ declared (number + 1) ls

/-- Lines as they are written, joined by LF. -/
def renderAll (ls : List SourceLine) : List Char := List.intercalate ['\n'] (ls.map render)

/-- What stands behind a line in a text. -/
def renderRest : List SourceLine → List Char
  | [] => []
  | l :: ls => '\n' :: renderAll (l :: ls)

@[simp] lemma renderAll_nil : renderAll [] = [] := rfl

/-- A text consists of its first line and what stands behind it. -/
lemma renderAll_cons (l : SourceLine) (ls : List SourceLine) :
    renderAll (l :: ls) = l.render ++ renderRest ls := by
  cases ls with
  | nil => rw [renderAll, List.map_singleton, List.intercalate_singleton, renderRest,
      List.append_nil]
  | cons m ls =>
    rw [renderAll, List.map_cons, List.map_cons, List.intercalate_cons_cons, List.append_assoc]
    rfl

/-- A line is followed by a line break or by nothing. -/
lemma head?_renderRest (ls : List SourceLine) :
    ∀ d ∈ (renderRest ls).head?, isLineBreak d = true := by
  intro d hd
  cases ls with
  | nil => exact absurd hd (by simp [renderRest])
  | cons l ls =>
    obtain rfl : '\n' = d := Option.some.inj hd
    decide

variable {l : SourceLine} {w : WrittenMark}

/-- What stands before a comment is plain. -/
lemma isPlain_of_mem_chars (hl : l.WellFormed) : ∀ c ∈ l.chars, IsPlain c := by
  cases l with
  | standalone indent w =>
    intro c hc
    rcases hl.1 c hc with rfl | rfl <;> decide
  | code chars trailing => exact hl.1

/-- The mark of a line is well formed. -/
lemma wellFormed_of_written? (hl : l.WellFormed) (hw : l.written? = some w) : w.WellFormed := by
  cases l with
  | standalone indent w' =>
    obtain rfl : w' = w := Option.some.inj hw
    exact hl.2
  | code chars trailing => exact (hl.2 w hw).2

/-- No line break stands in a line. -/
lemma isLineBreak_of_mem_render (hl : l.WellFormed) : ∀ c ∈ l.render, isLineBreak c = false := by
  intro c hc
  rcases List.mem_append.mp hc with hc | hc
  · exact (isPlain_of_mem_chars hl c hc).1
  · cases hw : l.written? with
    | none =>
      rw [hw] at hc
      exact absurd hc List.not_mem_nil
    | some w =>
      rw [hw] at hc
      have hwf := wellFormed_of_written? hl hw
      rcases List.mem_cons.mp hc with rfl | hc
      · decide
      rcases List.mem_cons.mp hc with rfl | hc
      · decide
      exact WrittenMark.isLineBreak_of_mem_body hwf c hc

/-- A comment is about the next line if and only if nothing but blanks stands before it. -/
lemma binding?_eq (hl : l.WellFormed) (number : Nat) :
    l.binding? number = l.written?.map fun w =>
      ⟨if l.chars.any (fun c => !isInlineBlank c) then number else number + 1, w.mark⟩ := by
  cases l with
  | standalone indent w =>
    have hany : indent.any (fun c => !isInlineBlank c) = false := by
      rw [List.any_eq_false]
      intro c hc
      rcases hl.1 c hc with rfl | rfl <;> decide
    rw [binding?, chars, hany]
    rfl
  | code chars trailing =>
    cases trailing with
    | none => rfl
    | some w =>
      obtain ⟨⟨c, hc, hblank⟩, -⟩ := hl.2 w rfl
      have hany : chars.any (fun c => !isInlineBlank c) = true :=
        List.any_eq_true.mpr ⟨c, hc, by rw [hblank]; rfl⟩
      rw [binding?, SourceLine.chars, hany]
      rfl

end SourceLine

end InlineExpect
