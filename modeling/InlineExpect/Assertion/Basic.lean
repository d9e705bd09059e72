/-!
# Assertions

What the comments of one file assert about its lines: the types expected of expressions, the lines
on which a diagnostic is expected, and the lines that two comments of the same kind compete for.
Lines count from zero.
-/

namespace InlineExpect

/-- The kinds of assertions. -/
inductive AssertionKind where
  | type
  | error
deriving DecidableEq, Repr

/-- The word by which a comment makes an assertion. -/
def AssertionKind.keyword : AssertionKind → String
  | .type => "$ExpectType"
  | .error => "$ExpectError"

/-- A line to which two assertions of one kind are bound. -/
structure Duplicate where
  line : Nat
  kind : AssertionKind
deriving DecidableEq, Repr

/-- The assertions of one file. -/
structure AssertionSet where
  /-- The expected types with their lines, in source order. -/
  types : List (Nat × String) := []
  /-- The lines on which a diagnostic is expected, in source order. -/
  errorLines : List Nat := []
  /-- The lines that lost their assertions of one kind, in the order in which that was found. -/
  duplicates : List Duplicate := []
deriving DecidableEq, Repr, Inhabited

namespace AssertionSet

/-- Whether the file asserts nothing. -/
def isEmpty (s : AssertionSet) : Bool :=
  s.types.isEmpty && s.errorLines.isEmpty && s.duplicates.isEmpty

/-- The lines with duplicates of either kind. -/
def duplicateLines (s : AssertionSet) : List Nat := s.duplicates.map (·.line)

/-- Whether a line has duplicates of either kind. -/
def isDuplicateLine (s : AssertionSet) (line : Nat) : Bool := s.duplicateLines.contains line

theorem isDuplicateLine_iff (s : AssertionSet) (line : Nat) :
    s.isDuplicateLine line = true ↔ line ∈ s.duplicateLines :=
  List.contains_iff_mem

end AssertionSet

end InlineExpect
