import SymbolPaths.Number.Binary64
import SymbolPaths.Suggest.EditDistance
import SymbolPaths.Symbol.Tree

/-!
# Suggestions

Symbols are suggested for a query in the order of how far it is from their
paths: the edit distance in percent of the longer of the two texts, where the
tags of a path have commas between them. Symbols that are equally far keep
their order in the file.
-/

namespace SymbolPaths

namespace Suggest

/-- The length of the longer of two texts. -/
def longest (query candidate : String) : Nat :=
  max query.toList.length candidate.toList.length

/-- How far two texts are apart, as the ratio of two numbers: a hundred times the
    distance, and the length of the longer one. -/
def scoreRatio (query candidate : String) : Nat × Nat :=
  (editDistance query.toList candidate.toList * 100, longest query candidate)

/-- How far two texts are apart, in percent. -/
def score (query candidate : String) : Binary64 :=
  if longest query candidate = 0 then Binary64.zero
  else Binary64.ofRatio (scoreRatio query candidate).1 (scoreRatio query candidate).2

/-- What a query is compared with. -/
def candidate (p : TagPath) : String := ",".intercalate p.tags

/-- The score of a symbol. -/
def scoreOf (t : SymbolTree) (query : String) (n : Nat) : Binary64 :=
  score query (candidate (t.pathOf n))

/-- The symbols, nearest first. Without a query, or with an empty one, they are in
    the order of the file. -/
def rank (t : SymbolTree) (query : Option String) : List Nat :=
  match query with
  | none => t.depthFirst
  | some q =>
    if q = "" then t.depthFirst
    else
      ((t.depthFirst.map fun n => (scoreOf t q n, n)).mergeSort fun a b => a.1.le b.1).map (·.2)

end Suggest

end SymbolPaths
