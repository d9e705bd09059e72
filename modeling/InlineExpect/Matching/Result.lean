import InlineExpect.Assertion.Basic
import InlineExpect.Diagnostic.Basic
import InlineExpect.Matching.Failure
import InlineExpect.Syntax.Tree
import InlineExpect.Text.LineIndex
import InlineExpect.Version.Basic

/-!
# Match results

What comes out when the assertions of a file are compared with the answers of a checker: everything
that does not match, by kind, and its rendering as failures.
-/

namespace InlineExpect

/-- An expression that has another type than expected. -/
structure Mismatch where
  node : NodeId
  span : Span
  expected : String
  actual : String
deriving DecidableEq, Repr

/-- Everything that does not match in a file. -/
structure MatchResult where
  mismatches : List Mismatch := []
  /-- The lines of expected types on which no node starts. -/
  unusedLines : List Nat := []
  /-- The lines of expected diagnostics that have none. -/
  unseenErrorLines : List Nat := []
  /-- The diagnostics that nothing expects. -/
  unexpected : List Diagnostic := []
  duplicates : List Duplicate := []
deriving DecidableEq, Repr

namespace MatchResult

/-- The number of things that do not match. -/
def failureCount (r : MatchResult) : Nat :=
  r.mismatches.length + r.unusedLines.length + r.unseenErrorLines.length + r.unexpected.length +
    r.duplicates.length

/-- Whether everything matches. -/
def isPass (r : MatchResult) : Bool := r.failureCount == 0

/-- A failure that concerns a line as a whole, which may be the one after the last. -/
def lineFailure (file : String) (index : LineIndex) (kind : FailureKind) (message : String)
    (line : Nat) : Failure :=
  ⟨file, ⟨index.lineStartOrEnd line, 0⟩, line, 0, kind, message⟩

/-- A failure at the start of a span. -/
def spanFailure (file : String) (index : LineIndex) (kind : FailureKind) (message : String)
    (span : Span) : Except LookupError Failure := do
  let position ← index.positionOf span.start
  return ⟨file, span, position.line, position.column, kind, message⟩

/-- The failure that a line with duplicates is. -/
def duplicateFailure (file : String) (index : LineIndex) (d : Duplicate) : Failure :=
  lineFailure file index .duplicateAssertion
    (Template.duplicateAssertion.format [d.kind.keyword]) d.line

/-- The failure that a mismatch is. -/
def mismatchFailure (file : String) (index : LineIndex) (m : Mismatch) :
    Except LookupError Failure :=
  spanFailure file index .typeMismatch (Template.expectedType.format [m.expected, m.actual]) m.span

/-- The failure that an unexpected diagnostic is.  One without a place is shown at the start. -/
def diagnosticFailure (file : String) (index : LineIndex) (version : Version) (d : Diagnostic) :
    Except LookupError Failure :=
  spanFailure file index .unexpectedDiagnostic
    (Template.compileError.format [version.text, d.text]) (d.span.getD {})

/-- All failures, in the order of their kinds. -/
def failuresByKind (r : MatchResult) (file : String) (index : LineIndex) (version : Version) :
    Except LookupError (List Failure) := do
  let mismatches ← r.mismatches.mapM (mismatchFailure file index)
  let unexpected ← r.unexpected.mapM (diagnosticFailure file index version)
  return r.duplicates.map (duplicateFailure file index) ++ mismatches ++
    r.unusedLines.map
      (lineFailure file index .unmatchedAssertion (Template.unmatchedAssertion.format [])) ++
    r.unseenErrorLines.map
      (lineFailure file index .missingExpectedError (Template.missingError.format [])) ++
    unexpected

/-- All failures, in the order of their positions. -/
def failures (r : MatchResult) (file : String) (index : LineIndex) (version : Version) :
    Except LookupError (List Failure) :=
  (r.failuresByKind file index version).map Failure.sort

end MatchResult

end InlineExpect
