import SymbolPaths.Grammar.Session
import SymbolPaths.Symbol.File

/-!
# Parsing files

The symbols of a file on the disk. Its name tells its language, whose grammar
is loaded if it is not there. Files of unknown languages have no tree, and
neither has any file before the engine is up.
-/

namespace SymbolPaths

/-- What parsers make of files: the syntax tree of a file that holds a text, by the
    names that lead to it. -/
abbrev SyntaxParser := Place → String → SourceTree

namespace Session

/-- The names that lead to the file at a path. -/
def placeOf (d : Disk) (path : String) : Place :=
  match d.resolve path with
  | .ok (.file place _) => place
  | _ => []

/-- The symbols of the file at a path, for a language whose grammar is there. -/
def parseWith (d : Disk) (parser : SyntaxParser) (h : GrammarHandle) (path : String) :
    Except Failure SymbolTree :=
  match d.readText path with
  | .error e => .error (.io e)
  | .ok text => SymbolTree.ofFile h (parser (placeOf d path) text) text

/-- The symbols of the file at a path. -/
def parse (env : Surroundings) (parser : SyntaxParser) (s : Session) (path : String) :
    Session × Except Failure (Option SymbolTree) :=
  match Language.ofPath? path with
  | none => (s, .ok none)
  | some language =>
    if !s.state.ready then (s, .ok none)
    else
      match s.load env language.name with
      | (s, .error e) => (s, .error (.acquire e))
      | (s, .ok h) => (s, (parseWith s.disk parser h path).map some)

end Session

end SymbolPaths
