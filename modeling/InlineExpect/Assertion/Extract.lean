import InlineExpect.Assertion.Mark
import InlineExpect.Comment.Scan
import InlineExpect.Text.LineIndex

/-!
# Extracting assertions

A line comment that is the first thing on its line makes an assertion about the next line, any other
one about its own line.  A second assertion of the same kind about a line invalidates the first, and
further ones change nothing.
-/

namespace InlineExpect

/-- A mark together with the line that it is about. -/
structure Binding where
  line : Nat
  mark : Mark
deriving DecidableEq, Repr

/-- Follows ascending offsets through the lines of a text. -/
structure LineCursor where
  /-- The line that has been reached. -/
  line : Nat
  /-- The offsets at which the lines after it start. -/
  upcoming : List Nat

namespace LineCursor

/-- The cursor at the first line of a text. -/
def start (index : LineIndex) : LineCursor := ⟨0, index.starts.toList.tail⟩

/-- Moves on to the line in which an offset lies. -/
def advance (line pos : Nat) : List Nat → LineCursor
  | [] => ⟨line, []⟩
  | start :: starts =>
    if start ≤ pos then advance (line + 1) pos starts else ⟨line, start :: starts⟩

end LineCursor

/-- The line that a comment on a given line is about. -/
def Comment.owningLine (c : Comment) (line : Nat) : Nat := if c.firstOnLine then line + 1 else line

/-- The marks among some comments in source order, bound to their lines. -/
def bindings (cursor : LineCursor) : List Comment → List Binding
  | [] => []
  | c :: cs =>
    match if c.isLine then Mark.ofBody? c.body else none with
    | none => bindings cursor cs
    | some mark =>
      let cursor := LineCursor.advance cursor.line c.start cursor.upcoming
      ⟨c.owningLine cursor.line, mark⟩ :: bindings cursor cs

/-- The assertions that have been collected, and the lines that are lost to each kind. -/
structure Collector where
  set : AssertionSet := {}
  invalidTypeLines : List Nat := []
  invalidErrorLines : List Nat := []

namespace Collector

/-- Adds an expected type. -/
def addType (c : Collector) (line : Nat) (expected : String) : Collector :=
  if c.invalidTypeLines.contains line then c
  else if (c.set.types.map (·.1)).contains line then
    { c with
      set.types := c.set.types.filter (·.1 != line)
      set.duplicates := c.set.duplicates ++ [⟨line, .type⟩]
      invalidTypeLines := line :: c.invalidTypeLines }
  else { c with set.types := c.set.types ++ [(line, expected)] }

/-- Adds a line on which a diagnostic is expected. -/
def addError (c : Collector) (line : Nat) : Collector :=
  if c.invalidErrorLines.contains line then c
  else if c.set.errorLines.contains line then
    { c with
      set.errorLines := c.set.errorLines.filter (· != line)
      set.duplicates := c.set.duplicates ++ [⟨line, .error⟩]
      invalidErrorLines := line :: c.invalidErrorLines }
  else { c with set.errorLines := c.set.errorLines ++ [line] }

/-- Adds the assertion of a binding. -/
def add (c : Collector) (b : Binding) : Collector :=
  match b.mark with
  | .type expected => c.addType b.line (String.ofList expected)
  | .error => c.addError b.line

end Collector

namespace AssertionSet

/-- The assertions that some bindings make. -/
def ofBindings (bs : List Binding) : AssertionSet := (bs.foldl Collector.add {}).set

/-- The assertions of all comments of a text. -/
def ofComments (text : List Char) : AssertionSet :=
  ofBindings (bindings (LineCursor.start (LineIndex.ofText text)) (Comment.scan text))

/-- The assertions of a text.  A text without the marker need not be scanned. -/
def extract (text : List Char) : AssertionSet :=
  if hasMarker text then ofComments text else {}

end AssertionSet

end InlineExpect
