import InlineExpect.Syntax.Tree

/-!
# Building syntax trees

A tree is built in source order by opening nodes, closing them, and adding leaves.  Each new node
becomes the last child of the node that was opened last and is still open.  The root is open from
the start to the end.
-/

namespace InlineExpect

/-- A tree that is being built. -/
structure TreeBuilder where
  file : String
  nodes : Array SyntaxNode
  /-- The open nodes other than the root, innermost first. -/
  openNodes : List NodeId
deriving Repr

namespace TreeBuilder

/-- A tree with nothing but its root. -/
def start (file : String) (span : Span) : TreeBuilder :=
  ⟨file, #[⟨.sourceFile, span, none, []⟩], []⟩

/-- The node that the next one will be a child of. -/
def current (b : TreeBuilder) : NodeId := b.openNodes.headD SyntaxTree.root

/-- The number of the next node.  It fits into 32 bits as long as there are fewer than `2 ^ 32`
nodes. -/
def nextId (b : TreeBuilder) : NodeId := b.nodes.size

/-- Adds a child to a node. -/
def addChild (child : NodeId) (n : SyntaxNode) : SyntaxNode :=
  { n with children := n.children ++ [child] }

/-- Adds a node without children. -/
def leaf (b : TreeBuilder) (kind : SyntaxKind) (span : Span) : TreeBuilder :=
  { b with
    nodes := (b.nodes.modify b.current (addChild b.nextId)).push ⟨kind, span, some b.current, []⟩ }

/-- Adds a node and opens it. -/
def openNode (b : TreeBuilder) (kind : SyntaxKind) (span : Span) : TreeBuilder :=
  { b.leaf kind span with openNodes := b.nextId :: b.openNodes }

/-- Closes the node that was opened last.  The root is never closed. -/
def closeNode (b : TreeBuilder) : TreeBuilder := { b with openNodes := b.openNodes.tail }

/-- The finished tree, whatever is still open. -/
def finish (b : TreeBuilder) : SyntaxTree := ⟨b.file, b.nodes⟩

end TreeBuilder

end InlineExpect
