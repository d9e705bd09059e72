import InlineExpect.Checker.Engine
import InlineExpect.Program.Basic
import InlineExpect.Snapshot.Document
import InlineExpect.Syntax.Builder

/-!
# Recordings

A recording holds a snapshot in the form in which its answers are looked up: the tree of each file
as a table of nodes in the order of the record, and the types by the numbers of the nodes.  A
recording answers as an engine.
-/

namespace InlineExpect

/-- What was recorded of one file. -/
structure RecordedFile where
  tree : SyntaxTree
  /-- The texts of the types that were recorded, by node. -/
  types : List (NodeId × String)
  diagnostics : List Diagnostic
deriving Repr, Inhabited

/-- What was recorded of some files. -/
structure Recording where
  version : Option String := none
  files : List (String × RecordedFile) := []
deriving Repr, Inhabited

namespace RecordedNode

/-- The stretch of a node, which must not end before it starts. -/
def span (file : String) (n : RecordedNode) : Except EngineFault Span :=
  if n.stop < n.start then .error (.invertedSpan n.kind file n.start n.stop)
  else .ok (.ofBounds n.start n.stop)

/-- The type of a node in front of other types, if it was recorded. -/
def addType (id : NodeId) (n : RecordedNode) (types : List (NodeId × String)) :
    List (NodeId × String) :=
  match n.type with
  | some text => (id, text) :: types
  | none => types

mutual

/-- Adds a recorded node and all nodes below it to a tree, and the types of these nodes. -/
def build (file : String) (b : TreeBuilder) (types : List (NodeId × String)) :
    RecordedNode → Except EngineFault (TreeBuilder × List (NodeId × String))
  | ⟨kind, start, stop, type, children⟩ => do
    let n : RecordedNode := ⟨kind, start, stop, type, children⟩
    let span ← n.span file
    match children with
    | [] => return (b.leaf kind span, n.addType b.nextId types)
    | child :: rest =>
      let (inner, types) ← buildAll file (b.openNode kind span) types (child :: rest)
      return (inner.closeNode, n.addType b.nextId types)

/-- Adds some recorded nodes, one after the other. -/
def buildAll (file : String) (b : TreeBuilder) (types : List (NodeId × String)) :
    List RecordedNode → Except EngineFault (TreeBuilder × List (NodeId × String))
  | [] => .ok (b, types)
  | n :: ns => do
    let (b, types) ← build file b types n
    buildAll file b types ns

end

end RecordedNode

/-- The record of a file with its tree built.  The root has to be the node of a whole file. -/
def FileRecord.build (file : String) (r : FileRecord) : Except EngineFault RecordedFile := do
  if r.tree.kind = .sourceFile then
    let span ← r.tree.span file
    let types := r.tree.addType SyntaxTree.root []
    let (b, types) ←
      RecordedNode.buildAll file (TreeBuilder.start file span) types r.tree.children
    return ⟨b.finish, types, r.diagnostics⟩
  else throw (.rootKind file)

/-- The recording of a document.  The first file that cannot be built is the error. -/
def SnapshotDocument.build (d : SnapshotDocument) : Except EngineFault Recording := do
  return ⟨d.version, ← d.files.mapM fun p => do return (p.1, ← p.2.build p.1)⟩

/-- The greatest number of bytes of the text of a type that may be cut. -/
def maxTypeLength : Nat := 160

/-- The longest start of a text that has at most `n` bytes. -/
def takeBytes (n : Nat) : List Char → List Char
  | [] => []
  | c :: cs => if c.utf8Size ≤ n then c :: takeBytes (n - c.utf8Size) cs else []

/-- A text that is cut, and ends in three points, if it is too long. -/
def truncateType (text : String) : String :=
  if text.utf8ByteSize ≤ maxTypeLength then text
  else String.ofList (takeBytes (maxTypeLength - 3) text.toList ++ ['.', '.', '.'])

namespace Recording

/-- The recording of the JSON text of a snapshot. -/
def parse (text : String) : Except OracleError Recording :=
  match SnapshotDocument.parse? text with
  | none => .error .snapshot
  | some d => d.build.mapError .engine

/-- The recording of a snapshot that is kept in a file. -/
def read (tree : FileTree) (path : String) : Except OracleError Recording :=
  match tree.readText path with
  | .error e => .error (.unreadable path e)
  | .ok text => parse text

/-- Whether a file was recorded. -/
def contains (r : Recording) (file : String) : Bool := (r.files.lookup file).isSome

/-- What was recorded of a file. -/
def file (r : Recording) (file : String) : Except OracleError RecordedFile :=
  match r.files.lookup file with
  | some f => .ok f
  | none => .error (.unknownFile file)

/-- The text of the type of a node. -/
def typeText (r : Recording) (file : String) (node : NodeId) (format : TypeFormat) :
    Except OracleError String := do
  let f ← r.file file
  if node < f.tree.size then
    match f.types.lookup node with
    | none => throw (.engine (.untyped node file))
    | some text => return if format.noTruncation then text else truncateType text
  else throw (.unknownNode file node)

/-- The engine that answers with what was recorded. -/
def engine (r : Recording) : Engine where
  tree file := (r.file file).map (·.tree)
  diagnostics file := (r.file file).map (·.diagnostics)
  typeText := r.typeText

/-- The engine for a program, every file of which has to be recorded. -/
def engineFor (r : Recording) (p : Program) : Except OracleError Engine :=
  match p.files.find? fun f => !r.contains f.name with
  | some f => .error (.unknownFile f.name)
  | none => .ok r.engine

end Recording

end InlineExpect
