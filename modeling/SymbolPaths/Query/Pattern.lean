import SymbolPaths.SourceTree

/-!
# Patterns over syntax trees

A query is a list of patterns. A pattern asks for a node of some kind and for
nodes below it, in order but with gaps allowed; it may ask for the field that a
node fills and for fields that must stay open. A match lists the nodes that the
pattern captures, in preorder.

Patterns are forests: what is below a step of a pattern is asked for below the
node, and what is after it among the later siblings.

* `Pattern.matchesIn` finds all ways to match a pattern among siblings;
* `Query.allMatches` lists the matches of all patterns at all nodes in the order
  in which a reader of the tree completes them: by the last node that the match
  had to look at, then by its root, then by the position of the pattern.
-/

namespace SymbolPaths

/-- Which nodes a step of a pattern accepts. -/
inductive KindTest where
  /-- Any node with a name, except text that the grammar does not allow. -/
  | anyNamed
  /-- Nodes of one kind. -/
  | kind (name : String)
  /-- Nodes of any of several kinds. -/
  | oneOf (names : List String)
  /-- A keyword. -/
  | keyword (word : String)
  deriving DecidableEq, Repr, Inhabited

/-- One node of a pattern. -/
structure PatternStep where
  test : KindTest
  /-- The field that the node has to fill; empty if any will do. -/
  field : String
  /-- Fields that no child of the node may fill. -/
  lacks : List String
  /-- The name under which the node is captured; empty if it is not. -/
  capture : String
  deriving DecidableEq, Repr, Inhabited

/-- A pattern, or several to be matched by siblings in order. -/
abbrev Pattern := Forest PatternStep

/-- One way to match a pattern. -/
structure PatternMatch where
  /-- The numbers of the captured nodes, in preorder. -/
  captures : List Nat
  /-- The largest number of a node that was looked at. -/
  last : Nat
  deriving DecidableEq, Repr, Inhabited

/-- Whether a node is of the kind asked for. -/
def KindTest.accepts (test : KindTest) (n : SourceNode) : Bool :=
  match test with
  | anyNamed => n.isNamed && n.kind != SourceNode.errorKind
  | kind name => n.kind == name && n.isNamed
  | oneOf names => names.contains n.kind && n.isNamed
  | keyword word => n.kind == word && !n.isNamed

/-- Whether a node fits a step, apart from what is asked for below it. -/
def PatternStep.accepts (s : PatternStep) (n : SourceNode) (below : Forest SourceNode) : Bool :=
  s.test.accepts n && (s.field.isEmpty || s.field == n.field) &&
    below.roots.all fun c => !s.lacks.contains c.field

namespace Pattern

/-- All ways to match the trees of a pattern, in order, by trees of a forest
    whose first node has number `start`. -/
def matchesIn (start : Nat) : Pattern → Forest SourceNode → List PatternMatch
  | .nil, _ => [{ captures := [], last := 0 }]
  | .cons _ _ _, .nil => []
  | .cons step inner rest, .cons n below after =>
    let next := start + 1 + below.size
    let here :=
      if step.accepts n below then
        (matchesIn (start + 1) inner below).flatMap fun m =>
          (matchesIn next rest after).map fun m' =>
            { captures := (if step.capture.isEmpty then [] else [start]) ++ m.captures ++ m'.captures
              last := max start (max m.last m'.last) }
      else []
    here ++ matchesIn next (.cons step inner rest) after

/-- All ways to match a pattern of one tree at a node. -/
def matchesAt (start : Nat) (p : Pattern) (n : SourceNode) (below : Forest SourceNode) :
    List PatternMatch :=
  matchesIn start p (.cons n below .nil)

end Pattern

/-- A list of patterns. -/
abbrev Query := List Pattern

/-- A match with what decides its place: the last node looked at, the node at
    the root, and the position of the pattern in the query. -/
structure QueryMatch where
  last : Nat
  root : Nat
  pattern : Nat
  captures : List Nat
  deriving DecidableEq, Repr, Inhabited

namespace QueryMatch

/-- Whether a match is listed before another, or they share their place. -/
def le (a b : QueryMatch) : Bool :=
  a.last < b.last || a.last == b.last &&
    (a.root < b.root || a.root == b.root && a.pattern ≤ b.pattern)

end QueryMatch

namespace Query

/-- The matches of every pattern at one node. -/
def matchesAt (q : Query) (start : Nat) (n : SourceNode) (below : Forest SourceNode) :
    List QueryMatch :=
  q.zipIdx.flatMap fun (p, i) =>
    (p.matchesAt start n below).map fun m =>
      { last := m.last, root := start, pattern := i, captures := m.captures }

/-- The matches at every node of a forest, in preorder. -/
def matchesIn (q : Query) (start : Nat) : Forest SourceNode → List QueryMatch
  | .nil => []
  | .cons n below after =>
    q.matchesAt start n below ++ q.matchesIn (start + 1) below ++
      q.matchesIn (start + 1 + below.size) after

/-- The matches of a query in a tree, in the order of their completion. -/
def allMatches (q : Query) (t : SourceTree) : List QueryMatch :=
  (q.matchesIn 0 t.forest).mergeSort QueryMatch.le

end Query

end SymbolPaths
