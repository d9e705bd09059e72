import InlineExpect.Syntax.Kind
import InlineExpect.Text.Span

/-!
# Syntax trees

The tree of one file, as a table of nodes that refer to each other by number.  The root has number
zero and is the node of the whole file.

Numbers have no bound here.  They fit into 32 bits for every tree of at most `2 ^ 32` nodes.
-/

namespace InlineExpect

/-- The number of a node in its tree. -/
abbrev NodeId := Nat

/-- The number of a node as it is shown. -/
def NodeId.text (id : NodeId) : String := s!"#{id}"

/-- A node of a tree. -/
structure SyntaxNode where
  kind : SyntaxKind
  /-- The stretch from the first token of the node to its end. -/
  span : Span
  parent : Option NodeId
  children : List NodeId
deriving DecidableEq, Repr, Inhabited

/-- The tree of one file. -/
structure SyntaxTree where
  file : String
  nodes : Array SyntaxNode
deriving DecidableEq, Repr, Inhabited

namespace SyntaxTree

/-- The number of the root. -/
def root : NodeId := 0

/-- The node with a number, if the tree has one. -/
def get? (t : SyntaxTree) (id : NodeId) : Option SyntaxNode := t.nodes[id]?

/-- The number of nodes. -/
def size (t : SyntaxTree) : Nat := t.nodes.size

/-- The children of a node in source order. -/
def children (t : SyntaxTree) (id : NodeId) : List NodeId :=
  match t.get? id with
  | some node => node.children
  | none => []

/-- The stretch of a node. -/
def span (t : SyntaxTree) (id : NodeId) : Span :=
  match t.get? id with
  | some node => node.span
  | none => {}

/-- The expression that an expression statement consists of, and any other node itself.  The
expression of a statement inside a statement is not looked for. -/
def unwrap (t : SyntaxTree) (id : NodeId) : NodeId :=
  match t.get? id with
  | some ⟨.expressionStatement, _, _, child :: _⟩ => child
  | _ => id

/-- Visits the nodes on a stack: the topmost node first, then its children in their order, then the
rest of the stack.  At most `fuel` nodes are visited. -/
def visit (t : SyntaxTree) : Nat → List NodeId → List NodeId
  | 0, _ => []
  | _ + 1, [] => []
  | fuel + 1, id :: stack => id :: t.visit fuel (t.children id ++ stack)

/-- A node and all nodes below it, parents before their children. -/
def preorderFrom (t : SyntaxTree) (id : NodeId) : List NodeId := t.visit t.size [id]

/-- All nodes that can be reached from the root, parents before their children. -/
def preorder (t : SyntaxTree) : List NodeId := t.preorderFrom root

end SyntaxTree

end InlineExpect
