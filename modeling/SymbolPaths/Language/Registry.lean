import SymbolPaths.Disk.Path
import SymbolPaths.Query.Bundled

/-!
# The languages

The registry of languages: the name under which the grammar of a language is
distributed, the extensions of its files, and the query that finds its symbols.
Languages without a query are parsed, but have no symbols.

* `find?_eq_some`: what is found under a name is of the registry and has it.
-/

namespace SymbolPaths

/-- A language. -/
structure Language where
  name : String
  /-- The extensions of its files, with the dot. -/
  extensions : List String
  query : Option Query
  deriving DecidableEq, Repr, Inhabited

namespace Language

/-- Whether files of the language have symbols. -/
def isTaggable (l : Language) : Bool := l.query.isSome

/-- The text of the query. -/
def queryText? (l : Language) : Option String := l.query.map Query.render

/-- Every language of the registry, those with symbols first. -/
def all : List Language := [
  ⟨"c", [".c", ".h"], some Query.c⟩,
  ⟨"cpp", [".cc", ".cpp", ".cxx", ".hpp", ".hh", ".hxx"], some Query.cpp⟩,
  ⟨"go", [".go"], some Query.go⟩,
  ⟨"javascript", [".js", ".mjs", ".cjs", ".jsx"], some Query.javascript⟩,
  ⟨"python", [".py", ".pyi"], some Query.python⟩,
  ⟨"rust", [".rs"], some Query.rust⟩,
  ⟨"typescript", [".ts", ".mts", ".cts"], some Query.typescript⟩,
  ⟨"tsx", [".tsx"], some Query.typescript⟩,
  ⟨"bash", [".sh", ".bash"], none⟩,
  ⟨"c_sharp", [".cs"], none⟩,
  ⟨"css", [".css"], none⟩,
  ⟨"html", [".html", ".htm"], none⟩,
  ⟨"java", [".java"], none⟩,
  ⟨"json", [".json"], none⟩,
  ⟨"php", [".php"], none⟩,
  ⟨"ruby", [".rb"], none⟩]

/-- The languages with symbols. -/
def taggable : List Language := all.filter isTaggable

/-- The language of a name. -/
def find? (name : String) : Option Language := all.find? (·.name == name)

/-- The language of an extension, which is given with its dot. Case counts. -/
def ofExtension? (ext : String) : Option Language := all.find? (·.extensions.contains ext)

/-- The language of a file. -/
def ofPath? (path : String) : Option Language := (FilePath.extension? path).bind ofExtension?

theorem find?_eq_some {name : String} {l : Language} (h : find? name = some l) :
    l ∈ all ∧ l.name = name :=
  ⟨List.mem_of_find?_eq_some h, by simpa using List.find?_some h⟩

end Language

end SymbolPaths
