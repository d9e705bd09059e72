import InlineExpect.FileTree.Basic
import InlineExpect.Syntax.Tree

/-!
# Failures of a checker

The reasons for which a checker cannot answer a question.
-/

namespace InlineExpect

/-- A failure inside a checker. -/
inductive EngineFault where
  /-- A node has no recorded type. -/
  | untyped (node : NodeId) (file : String)
  /-- The recorded tree of a file is not the tree of a whole file. -/
  | rootKind (file : String)
  /-- A recorded node ends before it starts. -/
  | invertedSpan (kind : SyntaxKind) (file : String) (start stop : Nat)
  /-- Any other failure, in the words of the checker. -/
  | other (message : String)
deriving DecidableEq, Repr

/-- The wording of a failure. -/
def EngineFault.message : EngineFault → String
  | .untyped node file => s!"no type recorded for node {node.text} in {file}"
  | .rootKind file => s!"snapshot tree for {file} must start at a SourceFile node"
  | .invertedSpan kind file start stop =>
    s!"{kind.name} node in {file} ends at {stop} before it starts at {start}"
  | .other message => message

/-- A question that has no answer. -/
inductive OracleError where
  | unknownFile (file : String)
  | unknownNode (file : String) (node : NodeId)
  | engine (fault : EngineFault)
  /-- A snapshot is not the JSON text of a snapshot. -/
  | snapshot
  /-- A snapshot cannot be read. -/
  | unreadable (path : String) (cause : FileError)
deriving DecidableEq, Repr

/-- The wording of a question that has no answer. -/
def OracleError.message : OracleError → String
  | .unknownFile file => s!"file {file} is not part of the program"
  | .unknownNode file node => s!"node {node.text} does not exist in {file}"
  | .engine fault => s!"checker engine failed: {fault.message}"
  | .snapshot => "invalid snapshot"
  | .unreadable path cause => s!"failed to read snapshot {path}: {cause.message}"

end InlineExpect
