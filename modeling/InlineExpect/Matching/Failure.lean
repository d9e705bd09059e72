import InlineExpect.Text.Span

/-!
# Failures

A failure is an assertion that does not hold, in the words in which it is reported.
-/

namespace InlineExpect

/-- The ways in which the assertions of a file can fail. -/
inductive FailureKind where
  | duplicateAssertion
  | typeMismatch
  | unmatchedAssertion
  | missingExpectedError
  | unexpectedDiagnostic
deriving DecidableEq, Repr

namespace FailureKind

/-- The place of a kind among failures at the same position. -/
def rank : FailureKind → Nat
  | .duplicateAssertion => 0
  | .typeMismatch => 1
  | .unmatchedAssertion => 2
  | .missingExpectedError => 3
  | .unexpectedDiagnostic => 4

/-- A kind in words. -/
def text : FailureKind → String
  | .duplicateAssertion => "duplicate assertion"
  | .typeMismatch => "type mismatch"
  | .unmatchedAssertion => "unmatched assertion"
  | .missingExpectedError => "missing expected error"
  | .unexpectedDiagnostic => "unexpected diagnostic"

end FailureKind

/-- An assertion that does not hold.  Line and column count from zero. -/
structure Failure where
  file : String
  span : Span
  line : Nat
  column : Nat
  kind : FailureKind
  message : String
deriving DecidableEq, Repr

namespace Failure

/-- A failure with a note on a line of its own in front of its message. -/
def annotate (f : Failure) (note : String) : Failure :=
  { f with message := s!"{note}\n{f.message}" }

/-- A failure with its position.  Line and column are shown counting from one. -/
def render (f : Failure) : String := s!"{f.file}:{f.line + 1}:{f.column + 1} - {f.message}"

/-- Whether a failure may stand in front of another one: by line, column and kind. -/
def le (f g : Failure) : Bool :=
  f.line < g.line ||
    (f.line == g.line &&
      (f.column < g.column || (f.column == g.column && f.kind.rank ≤ g.kind.rank)))

/-- Failures in their order.  Those with equal keys stay in the order in which they were found. -/
def sort (fs : List Failure) : List Failure := fs.mergeSort le

end Failure

end InlineExpect
