import InlineExpect.Text.Utf8

/-!
# Line index

Checkers report byte offsets, expectations are written per line.  A `LineIndex` records where the
lines of one text start, and answers in which line an offset lies.  Lines and columns count from
zero, columns in bytes.
-/

namespace InlineExpect

/-- A lookup outside the indexed text. -/
inductive LookupError where
  /-- The offset lies past the end of the text. -/
  | offset (pos size : Nat)
  /-- The text has no such line. -/
  | line (number count : Nat)
deriving DecidableEq, Repr

/-- The wording of a failed lookup. -/
def LookupError.message : LookupError → String
  | .offset pos size => s!"offset {pos} is out of range for text of length {size}"
  | .line number count => s!"line {number} is out of range for text with {count} lines"

/-- A line with a byte column in it. -/
structure Position where
  line : Nat
  column : Nat
deriving DecidableEq, Repr

namespace Text

/-- The offsets just after each line terminator of the bytes that begin at offset `pos`.  LF, CR,
CR LF together, and the three bytes of U+2028 and of U+2029 are terminators. -/
def startsAfter (pos : Nat) : List UInt8 → List Nat
  | [] => []
  | b :: bs =>
    if b = 0x0A then
      (pos + 1) :: startsAfter (pos + 1) bs
    else if b = 0x0D then
      match bs with
      | [] => [pos + 1]
      | b1 :: rest =>
        if b1 = 0x0A then (pos + 2) :: startsAfter (pos + 2) rest
        else (pos + 1) :: startsAfter (pos + 1) (b1 :: rest)
    else if b = 0xE2 then
      match bs with
      | b1 :: b2 :: rest =>
        if b1 = 0x80 ∧ (b2 = 0xA8 ∨ b2 = 0xA9) then (pos + 3) :: startsAfter (pos + 3) rest
        else startsAfter (pos + 1) (b1 :: b2 :: rest)
      | rest => startsAfter (pos + 1) rest
    else
      startsAfter (pos + 1) bs

end Text

/-- Where the lines of a text start, and how many bytes the text has. -/
structure LineIndex where
  starts : Array Nat
  size : Nat
deriving DecidableEq, Repr

namespace LineIndex

/-- The index of a text.  The first line starts at offset zero. -/
def ofText (text : List Char) : LineIndex :=
  let bytes := Text.utf8 text
  ⟨(0 :: Text.startsAfter 0 bytes).toArray, bytes.length⟩

/-- The number of lines. -/
def lineCount (index : LineIndex) : Nat := index.starts.size

/-- Halves the range from `lo` to `hi` until it holds one line: the last one of the range that
starts at `pos` or before it, provided that the line `lo` does. -/
def search (starts : Array Nat) (pos lo hi : Nat) : Nat :=
  if lo + 1 < hi then
    let mid := (lo + hi) / 2
    if starts.getD mid 0 ≤ pos then search starts pos mid hi else search starts pos lo mid
  else lo
termination_by hi - lo

/-- The line in which an offset lies.  The end of the text belongs to the last line. -/
def lineOf (index : LineIndex) (pos : Nat) : Except LookupError Nat :=
  if index.size < pos then .error (.offset pos index.size)
  else .ok (search index.starts pos 0 index.lineCount)

/-- The line and the column of an offset. -/
def positionOf (index : LineIndex) (pos : Nat) : Except LookupError Position := do
  let line ← index.lineOf pos
  return ⟨line, pos - index.starts.getD line 0⟩

/-- The offset at which a line starts. -/
def lineStart (index : LineIndex) (line : Nat) : Except LookupError Nat :=
  match index.starts[line]? with
  | some start => .ok start
  | none => .error (.line line index.lineCount)

/-- The offset at which a line starts, or the end of the text for a line that it does not have. -/
def lineStartOrEnd (index : LineIndex) (line : Nat) : Nat :=
  index.starts.getD line index.size

theorem lineOf_eq_error_iff (index : LineIndex) (pos : Nat) (e : LookupError) :
    index.lineOf pos = .error e ↔ index.size < pos ∧ e = .offset pos index.size := by
  unfold lineOf
  split
  · simp_all [eq_comm]
  · simp_all [Nat.not_lt_of_le]

theorem lineStart_eq_error_iff (index : LineIndex) (line : Nat) (e : LookupError) :
    index.lineStart line = .error e ↔ index.lineCount ≤ line ∧ e = .line line index.lineCount := by
  unfold lineStart lineCount
  split
  · rename_i start h
    have := (Array.getElem?_eq_some_iff.1 h).1
    constructor
    · intro h; simp at h
    · intro h; omega
  · rename_i h
    simp [Array.getElem?_eq_none_iff.1 h, eq_comm]

end LineIndex

end InlineExpect
