import InlineExpect.Assertion.Extract
import InlineExpect.Checker.Engine
import InlineExpect.Matching.Result
import InlineExpect.Program.Basic

/-!
# Matching assertions with answers

Diagnostics are compared with the lines on which they are expected.  An expected type is compared
with the type of the first node that starts on its line, in one walk through the tree.  The oracle
is asked for no more than this needs.
-/

namespace InlineExpect

/-- The reasons for which a file cannot be matched. -/
inductive MatchError where
  /-- The oracle has no answer. -/
  | oracle (version : Version) (e : OracleError)
  /-- The oracle speaks of a place that the file does not have. -/
  | lookup (version : Version) (file : String) (e : LookupError)
deriving DecidableEq, Repr

/-- The wording of a failed match. -/
def MatchError.message : MatchError → String
  | .oracle version e => s!"TypeScript@{version.text}: {e.message}"
  | .lookup version file e => s!"TypeScript@{version.text}: {file}: {e.message}"

/-- What becomes of the diagnostics of a file. -/
structure DiagnosticMatch where
  /-- The lines on which expected diagnostics were seen. -/
  seenLines : List Nat := []
  /-- The diagnostics that nothing expects, in order. -/
  unexpected : List Diagnostic := []

/-- Compares diagnostics with assertions.  A diagnostic without a place is never expected, and one
on a line with duplicates does not count at all. -/
def matchDiagnostics (index : LineIndex) (s : AssertionSet) :
    List Diagnostic → Except LookupError DiagnosticMatch
  | [] => .ok {}
  | d :: ds =>
    match d.span with
    | none => do
      let r ← matchDiagnostics index s ds
      return { r with unexpected := d :: r.unexpected }
    | some span => do
      let line ← index.lineOf span.start
      let r ← matchDiagnostics index s ds
      if s.isDuplicateLine line then return r
      else if s.errorLines.contains line then return { r with seenLines := line :: r.seenLines }
      else return { r with unexpected := d :: r.unexpected }

/-- What becomes of the expected types of a file. -/
structure TypeMatch where
  mismatches : List Mismatch := []
  /-- The expected types for which no node was found, in order. -/
  pending : List (Nat × String) := []

/-- Notes the type of a node where it is not the expected one. -/
def TypeMatch.note (r : TypeMatch) (node : NodeId) (span : Span) (expected actual : String) :
    TypeMatch :=
  if actual = expected then r
  else { r with mismatches := ⟨node, span, expected, actual⟩ :: r.mismatches }

section Asking

variable {m : Type → Type} [Monad m]

/-- An answer of an oracle of the given version. -/
def askOracle {α : Type} (version : Version) (answer : m (Except OracleError α)) :
    ExceptT MatchError m α :=
  ExceptT.mk (Except.mapError (MatchError.oracle version) <$> answer)

/-- A lookup in the index of a file. -/
def lookupIn {α : Type} (version : Version) (file : String) (r : Except LookupError α) :
    ExceptT MatchError m α :=
  ExceptT.mk (pure (r.mapError (MatchError.lookup version file)))

/-- Walks through nodes in order, until no expected type is pending, and compares the type of the
first node on the line of each. -/
def matchTypes (o : Oracle m) (file : String) (index : LineIndex) (tree : SyntaxTree) :
    List (Nat × String) → List NodeId → ExceptT MatchError m TypeMatch
  | pending, [] => pure { pending }
  | pending, id :: ids =>
    if pending.isEmpty then pure {}
    else do
      let line ← lookupIn o.version file (index.lineOf (tree.span id).start)
      match pending.lookup line with
      | none => matchTypes o file index tree pending ids
      | some expected =>
        let target := tree.unwrap id
        let actual ← askOracle o.version (o.typeOf file target)
        let r ← matchTypes o file index tree (pending.filter (·.1 != line)) ids
        return r.note target (tree.span target) expected actual

/-- Compares all expected types of a file.  Without any, the tree of the file is not needed. -/
def matchTree (o : Oracle m) (file : String) (index : LineIndex) (types : List (Nat × String)) :
    ExceptT MatchError m TypeMatch :=
  if types.isEmpty then pure {}
  else do
    let tree ← askOracle o.version (o.tree file)
    matchTypes o file index tree types tree.preorder.tail

/-- What does not match, put together. -/
def MatchResult.ofParts (s : AssertionSet) (d : DiagnosticMatch) (t : TypeMatch) : MatchResult where
  mismatches := t.mismatches
  unusedLines := t.pending.map (·.1)
  unseenErrorLines := s.errorLines.filter fun line => !d.seenLines.contains line
  unexpected := d.unexpected
  duplicates := s.duplicates

/-- Matches the assertions of a file.  A file without assertions must not have any diagnostics. -/
def matchAssertions (o : Oracle m) (file : String) (index : LineIndex) (s : AssertionSet) :
    ExceptT MatchError m MatchResult := do
  let diagnostics ← askOracle o.version (o.diagnostics file)
  if s.isEmpty then pure { unexpected := diagnostics }
  else do
    let d ← lookupIn o.version file (matchDiagnostics index s diagnostics)
    let t ← matchTree o file index s.types
    return .ofParts s d t

/-- The assertions of a source file.  A file of declarations has none. -/
def SourceFile.assertions (f : SourceFile) : AssertionSet :=
  if f.isDeclaration then {} else AssertionSet.extract f.text.toList

/-- Checks a source file, and gives its failures in order. -/
def checkFile (o : Oracle m) (f : SourceFile) : ExceptT MatchError m (List Failure) := do
  let index := LineIndex.ofText f.text.toList
  let r ← matchAssertions o f.name index f.assertions
  lookupIn o.version f.name (r.failures f.name index o.version)

end Asking

end InlineExpect
