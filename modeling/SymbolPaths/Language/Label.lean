import SymbolPaths.Text.Lines
import SymbolPaths.Text.Uppercase

/-!
# Labels of languages

The name of a language as people write it. Some have a spelling of their own;
otherwise the words of the name, which underscores and hyphens separate, start
with a capital.
-/

namespace SymbolPaths.Language

/-- The languages whose label is not made of the words of their name. -/
def spellings : List (String × String) := [
  ("cpp", "C++"), ("c_sharp", "C#"), ("javascript", "JavaScript"),
  ("typescript", "TypeScript"), ("tsx", "TSX"), ("html", "HTML"), ("css", "CSS"),
  ("scss", "SCSS"), ("json", "JSON"), ("xml", "XML"), ("yaml", "YAML"), ("php", "PHP"),
  ("gdscript", "GDScript"), ("hcl", "HCL"), ("dtd", "DTD"), ("r", "R")]

/-- A word with its first character in upper case. -/
def capitalize : List Char → List Char
  | [] => []
  | c :: cs => Text.upperCase c ++ cs

/-- The label of the language of a name. -/
def label (name : String) : String :=
  match spellings.lookup name with
  | some spelling => spelling
  | none =>
    let spaced := name.toList.map fun c => if c = '-' then '_' else c
    String.ofList (Text.join ' ' ((Text.pieces '_' spaced).map capitalize))

end SymbolPaths.Language
