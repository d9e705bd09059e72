import InlineExpect.Checker.Error
import InlineExpect.Diagnostic.Order
import InlineExpect.Version.Basic

/-!
# Engines and oracles

An engine is a checker of one version that has been given one program.  An oracle is what the
matcher needs of it: the diagnostics that come before the emission of code, in their order, and
types in full length.
-/

namespace InlineExpect

/-- How a type is turned into text. -/
structure TypeFormat where
  /-- Never cut long texts. -/
  noTruncation : Bool := false
  arrayAsGeneric : Bool := false
  fullyQualified : Bool := false
  typeArgumentsOfSignature : Bool := false
  aliasOutsideScope : Bool := false
deriving DecidableEq, Repr

/-- The format that the bits of a number stand for.  Bits without a meaning are dropped. -/
def TypeFormat.ofBits (n : Nat) : TypeFormat :=
  ⟨n.testBit 0, n.testBit 1, n.testBit 2, n.testBit 3, n.testBit 4⟩

/-- A checker of one version that has been given one program. -/
structure Engine where
  /-- The tree of a file. -/
  tree : String → Except OracleError SyntaxTree
  /-- Everything that is reported for a file, in any order. -/
  diagnostics : String → Except OracleError (List Diagnostic)
  /-- The text of the type of a node. -/
  typeText : String → NodeId → TypeFormat → Except OracleError String

/-- The answers of one version of the checker, given with the effects of `m`. -/
structure Oracle (m : Type → Type) where
  version : Version
  /-- The tree of a file. -/
  tree : String → m (Except OracleError SyntaxTree)
  /-- What is reported for a file before the emission of code, in order. -/
  diagnostics : String → m (Except OracleError (List Diagnostic))
  /-- The full text of the type of a node. -/
  typeOf : String → NodeId → m (Except OracleError String)

/-- The diagnostics of the phases before the emission of code, in order. -/
def Diagnostic.preEmit (ds : List Diagnostic) : List Diagnostic := sort (ds.filter isPreEmit)

/-- The oracle that an engine is. -/
def Engine.oracle (e : Engine) (version : Version) : Oracle Id where
  version := version
  tree := e.tree
  diagnostics file := (e.diagnostics file).map Diagnostic.preEmit
  typeOf file node := e.typeText file node { noTruncation := true }

end InlineExpect
