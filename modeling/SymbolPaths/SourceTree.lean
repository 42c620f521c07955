import SymbolPaths.Forest
import SymbolPaths.Text.Utf8

/-!
# Syntax trees of source files

What a parser for the language of a file makes of it: a tree whose nodes have
a kind, the name of the field they fill in their parent, and the span of the
file they cover. Nodes are numbered in preorder, the root being node 0.
-/

namespace SymbolPaths

/-- The part of a file that a node covers: byte offsets and their positions. -/
structure Span where
  start : Nat
  stop : Nat
  first : Text.Position
  last : Text.Position
  deriving DecidableEq, Repr, Inhabited

/-- The span between two byte offsets of a file. -/
def Span.of (file : Bytes) (start stop : Nat) : Span :=
  { start, stop, first := Text.positionAt file start, last := Text.positionAt file stop }

/-- A node of a syntax tree, without what is below it. -/
structure SourceNode where
  kind : String
  /-- The field of its parent that the node fills; empty if none. -/
  field : String
  span : Span
  deriving DecidableEq, Repr, Inhabited

namespace SourceNode

/-- The kind of nodes that stand for text that the grammar does not allow. -/
def errorKind : String := "ERROR"

/-- Keywords and punctuation marks have no name. Of these, trees keep only the
    keyword between the two types of an implementation. -/
def anonymousKinds : List String := ["for"]

/-- Whether the grammar has a name for nodes like this one. -/
def isNamed (n : SourceNode) : Bool := !anonymousKinds.contains n.kind

end SourceNode

/-- The syntax tree of a file. -/
structure SourceTree where
  root : SourceNode
  inner : Forest SourceNode
  deriving DecidableEq, Repr, Inhabited

namespace SourceTree

/-- The tree as a forest of one tree. -/
def forest (t : SourceTree) : Forest SourceNode := .cons t.root t.inner .nil

/-- The nodes in the order of their numbers. -/
def nodes (t : SourceTree) : List SourceNode := t.root :: t.inner.preorder

/-- The node with a number. -/
def node? (t : SourceTree) (n : Nat) : Option SourceNode := t.nodes[n]?

/-- The numbers of the nodes strictly above a node, outermost first. -/
def above (t : SourceTree) (n : Nat) : List Nat := t.forest.enclosing 0 n

/-- A node as a parser lists it. -/
structure Row where
  depth : Nat
  kind : String
  field : String
  start : Nat
  stop : Nat
  deriving DecidableEq, Repr, Inhabited

/-- The tree of a file whose nodes are listed in preorder. The first row is the
    root; without rows there is no tree. -/
def ofRows? (file : Bytes) (rows : List Row) : Option SourceTree :=
  let node (r : Row) : SourceNode :=
    { kind := r.kind, field := r.field, span := Span.of file r.start r.stop }
  match rows with
  | [] => none
  | r :: rs => some { root := node r, inner := Forest.ofRows (rs.map fun r => (r.depth, node r)) }

/-- The tree of a file in which nothing is told apart: one node of the given
    kind over all of it. -/
def whole (file : Bytes) (kind : String) : SourceTree :=
  { root := { kind, field := "", span := Span.of file 0 file.length }, inner := .nil }

end SourceTree

end SymbolPaths
