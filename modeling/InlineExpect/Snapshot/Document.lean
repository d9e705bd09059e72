import InlineExpect.Diagnostic.Json
import InlineExpect.Syntax.Kind

/-!
# Snapshot documents

A snapshot records what one version of the checker says about some files: the tree of each file with
the texts of the types of some nodes, and everything that is reported for it.  This file has the
document as it is written down, and its reading from JSON.
-/

namespace InlineExpect

open Json

/-- A node of a tree as it is recorded, with its first offset and the first one past it. -/
structure RecordedNode where
  kind : SyntaxKind
  start : Nat
  stop : Nat
  type : Option String
  children : List RecordedNode
deriving Repr, Inhabited

/-- The record of one file. -/
structure FileRecord where
  tree : RecordedNode
  diagnostics : List Diagnostic
deriving Repr, Inhabited

/-- The record of some files. -/
structure SnapshotDocument where
  /-- The version that the record says it was made with. -/
  version : Option String
  /-- The records, in ascending order of the names of the files. -/
  files : List (String × FileRecord)
deriving Repr, Inhabited

namespace RecordedNode

/-- The names of the parts of a recorded node. -/
def names : List String := ["kind", "start", "end", "type", "children"]

/-- Reads the kind of a node, which may be nested `depth` deep. -/
def kind? (depth : Nat) (v : Value) : Option SyntaxKind :=
  if v.height ≤ depth then v.name? fun s => some (SyntaxKind.ofName s) else none

/-- A node with the given parts and children. -/
def ofFields? (depth : Nat) (fields : List (String × Value)) (children : List RecordedNode) :
    Option RecordedNode := do
  return {
    kind := ← required? fields "kind" (kind? depth)
    start := ← required? fields "start" Value.word?
    stop := ← required? fields "end" Value.word?
    type := ← optional? fields "type" Value.string?
    children }

mutual

/-- Reads a node from a record that may be nested `depth` deep. -/
def ofValue? : Nat → Value → Option RecordedNode
  | 0, _ => none
  | depth + 1, .object members => do
    let fields ← Value.fields? names (.object members)
    ofFields? depth fields (← ofMember? depth members)
  | depth + 1, .array items => do
    let fields ← Value.fields? names (.array items)
    ofFields? depth fields (← ofItem? depth 4 items)
  | _ + 1, _ => none

/-- Reads the children of a node from the members of an object. -/
def ofMember? : Nat → List (String × Value) → Option (List RecordedNode)
  | _, [] => some []
  | depth, (name, v) :: members =>
    if name = "children" then ofChildren? depth v else ofMember? depth members

/-- Reads the children of a node from the item with an index. -/
def ofItem? : Nat → Nat → List Value → Option (List RecordedNode)
  | _, _, [] => some []
  | depth, 0, v :: _ => ofChildren? depth v
  | depth, i + 1, _ :: items => ofItem? depth i items

/-- Reads the children of a node from an array that may be nested `depth` deep. -/
def ofChildren? : Nat → Value → Option (List RecordedNode)
  | depth + 1, .array items => ofItems? depth items
  | _, _ => none

/-- Reads some nodes. -/
def ofItems? : Nat → List Value → Option (List RecordedNode)
  | _, [] => some []
  | depth, v :: items => do return (← ofValue? depth v) :: (← ofItems? depth items)

end

end RecordedNode

/-- Reads the record of a file, which may be nested `depth` deep. -/
def FileRecord.ofValue? (depth : Nat) (v : Value) : Option FileRecord := do
  let fields ← v.fields? ["tree", "diagnostics"]
  return {
    tree := ← required? fields "tree" (RecordedNode.ofValue? (depth - 1))
    diagnostics := ← defaulted? fields "diagnostics" [] (Value.list? Diagnostic.ofValue?) }

namespace SnapshotDocument

/-- Reads a snapshot from a record that may be nested `depth` deep. -/
def ofValue? (depth : Nat) (v : Value) : Option SnapshotDocument := do
  let fields ← v.fields? ["version", "files"]
  return {
    version := ← optional? fields "version" Value.string?
    files := ← required? fields "files" (Value.map? (FileRecord.ofValue? (depth - 2))) }

/-- Reads a snapshot from a JSON text. -/
def parse? (text : String) : Option SnapshotDocument := do
  ofValue? maxDepth (← Json.parse? text)

end SnapshotDocument

end InlineExpect
