import SymbolPaths.Query.Pattern

/-!
# Occurrences of symbols

A match of a tag query is an occurrence of a symbol: its first capture is the
node of the symbol, and the texts of the others, joined with blanks, are its
name. Matches without captures say nothing.
-/

namespace SymbolPaths

/-- A symbol found in a syntax tree: its name and the number of its node. -/
structure Occurrence where
  name : String
  node : Nat
  deriving DecidableEq, Repr, Inhabited

namespace Occurrence

/-- The text of a node, unless it is cut out of the middle of something. -/
def nodeText? (t : SourceTree) (file : Bytes) (n : Nat) : Option String := do
  let node ← t.node? n
  Text.decode? ((file.drop node.span.start).take (node.span.stop - node.span.start))

/-- The occurrence that a list of captures stands for. -/
def ofCaptures? (t : SourceTree) (file : Bytes) : List Nat → Option Occurrence
  | [] => none
  | node :: names => some { node, name := " ".intercalate (names.filterMap (nodeText? t file)) }

/-- The occurrences that the matches of a query stand for. -/
def ofMatches (t : SourceTree) (file : Bytes) (captures : List (List Nat)) : List Occurrence :=
  captures.filterMap (ofCaptures? t file)

/-- The occurrences that a query finds in a file. -/
def find (q : Query) (t : SourceTree) (file : Bytes) : List Occurrence :=
  ofMatches t file ((q.allMatches t).map (·.captures))

end Occurrence

end SymbolPaths
