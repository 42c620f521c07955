import SymbolPaths.Failure
import SymbolPaths.Language.Registry

/-!
# Grammars in memory

A payload is made into a grammar by the engine. It says which language it is
for: `grammar:` followed by that language, or `alias:` followed by another
language, whose grammar is then used instead. The engine knows the grammars of
some languages only.
-/

namespace SymbolPaths

/-- A grammar, which is known by the language that it describes. -/
structure Grammar where
  lang : String
  deriving DecidableEq, Repr, Inhabited

namespace Grammar

/-- The languages whose grammars the engine knows. -/
def linked : List String :=
  ["python", "rust", "javascript", "typescript", "tsx", "c", "cpp", "go", "json"]

/-- The text after `start`, if the text starts with it. -/
def after? (start : String) (text : String) : Option String :=
  if start.toList.isPrefixOf text.toList then
    some (String.ofList (text.toList.drop start.toList.length))
  else none

/-- The language whose grammar a payload for `lang` brings. -/
def target? (lang : String) (payload : Bytes) : Option String := do
  let text ← Text.decode? payload
  match after? "grammar:" text with
  | some name => if name = lang then some lang else none
  | none => after? "alias:" text

/-- Makes a grammar of the payload for a language. -/
def load (lang : String) (payload : Bytes) : Except AcquireError Grammar :=
  match target? lang payload with
  | none => .error (.invalidGrammar lang "unexpected payload")
  | some target =>
    if linked.contains target then .ok ⟨target⟩ else .error (.invalidGrammar lang "not linked")

/-- The languages of data. Their grammars have none of the kinds of nodes that
    the bundled queries ask for. -/
def dataLanguages : List String := ["json"]

/-- The kind of the root of trees made with a grammar of data. -/
def dataRootKind : String := "document"

end Grammar

/-- A language that is ready for use. -/
structure GrammarHandle where
  language : Language
  grammar : Grammar
  deriving DecidableEq, Repr, Inhabited

namespace GrammarHandle

/-- The query of the language, if it has one. A query fits only grammars that
    have the kinds of nodes it asks for; the first one that is missing is told
    with the rest of the query. -/
def query? (h : GrammarHandle) : Except Failure (Option Query) :=
  match h.language.query with
  | none => .ok none
  | some q =>
    if Grammar.dataLanguages.contains h.grammar.lang then
      .error (.query h.language.name
        ("Query error at 1:2. Invalid node type " ++ String.ofList (q.render.toList.drop 1)))
    else .ok (some q)

end GrammarHandle

end SymbolPaths
