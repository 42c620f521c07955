import SymbolPaths.Grammar.Handle
import SymbolPaths.Symbol.Tree

/-!
# The symbols of a file

The symbols of a file are those that the query of its language finds in its
syntax tree. A file of a language without a query has none. The query has to
fit the grammar, or nothing is made of the file.
-/

namespace SymbolPaths.SymbolTree

/-- The occurrences of symbols in a file with a syntax tree. -/
def occurrences (h : GrammarHandle) (t : SourceTree) (text : String) :
    Except Failure (List Occurrence) :=
  h.query?.map fun
    | some q => Occurrence.find q t (Text.encode text)
    | none => []

/-- The tree of the symbols of a file. -/
def ofFile (h : GrammarHandle) (t : SourceTree) (text : String) : Except Failure SymbolTree :=
  (occurrences h t text).map fun found => build t found text

end SymbolPaths.SymbolTree
