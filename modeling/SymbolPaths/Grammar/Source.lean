import SymbolPaths.Failure
import SymbolPaths.Text.Substitution

/-!
# Where grammars come from

A distribution of grammars is a template of addresses, in which one marker
stands for the version of the distribution and another for the language.

* `location` fills in the version first, and then the language in what came
  out, so a version that holds the language's marker has it filled in as well.
-/

namespace SymbolPaths

/-- A distribution of grammars. -/
structure GrammarSource where
  template : String
  version : String
  deriving DecidableEq, Repr, Inhabited

namespace GrammarSource

/-- The marker of the version. -/
def versionMarker : String := "\x7bversion\x7d"

/-- The marker of the language. -/
def langMarker : String := "\x7blang\x7d"

/-- The version that is used unless another is asked for. -/
def defaultVersion : String := "0.0.9"

/-- The template that is used unless another is asked for. -/
def defaultTemplate : String :=
  "https://cdn.jsdelivr.net/npm/tree-sitter-wasm-prebuilt@\x7bversion\x7d/wasm/tree-sitter-\x7blang\x7d.wasm"

/-- The distribution that is used unless another is asked for. -/
def standard : GrammarSource := ⟨defaultTemplate, defaultVersion⟩

/-- A distribution, if its template has both markers. -/
def make? (template version : String) : Except ConfigError GrammarSource :=
  match [versionMarker, langMarker].find? fun m => !Text.occurs m.toList template.toList with
  | some marker => .error (.missingMarker marker template)
  | none => .ok ⟨template, version⟩

/-- The address of the grammar of a language. -/
def location (s : GrammarSource) (lang : String) : String :=
  let versioned := Text.substitute versionMarker.toList s.version.toList s.template.toList
  String.ofList (Text.substitute langMarker.toList lang.toList versioned)

end GrammarSource

end SymbolPaths
