import SymbolPaths.Query.Pattern

/-!
# The bundled tag queries

For each language with symbols, the query that finds them. In every pattern
the first capture is the symbol and the later ones are the parts of its name.
A query is written out in the usual notation, one step of a pattern a line,
each two columns further in than the step above it.
-/

namespace SymbolPaths

/-! ### Writing queries -/

namespace PatternStep

/-- A line feed and the indentation of what is `depth` steps deep. -/
def newline (depth : Nat) : String := "\n" ++ String.ofList (List.replicate (2 * depth) ' ')

/-- A step without what is below it, which `inner` is the text of. -/
def render (s : PatternStep) (depth : Nat) (inner : String) : String :=
  let lacks := String.join (s.lacks.map fun f => newline (depth + 1) ++ "!" ++ f)
  let body := match s.test with
    | .anyNamed => "(_" ++ lacks ++ inner ++ ")"
    | .kind name => "(" ++ name ++ lacks ++ inner ++ ")"
    | .keyword word => "\"" ++ word ++ "\""
    | .oneOf names =>
      "[" ++ String.join (names.map fun k => newline (depth + 1) ++ "(" ++ k ++ ")") ++
        newline depth ++ "]"
  (if s.field.isEmpty then "" else s.field ++ ": ") ++ body ++
    (if s.capture.isEmpty then "" else " @" ++ s.capture)

end PatternStep

/-- What is asked for below a step, each on a line of its own. -/
def Pattern.renderInner (depth : Nat) : Pattern → String
  | .nil => ""
  | .cons s inner rest =>
    PatternStep.newline depth ++ s.render depth (renderInner (depth + 1) inner) ++
      renderInner depth rest

/-- A pattern of one tree. -/
def Pattern.render : Pattern → String
  | .nil => ""
  | .cons s inner _ => s.render 0 (Pattern.renderInner 1 inner)

/-- A query: its patterns with an empty line between them. -/
def Query.render (q : Query) : String :=
  String.intercalate "\n\n" (q.map Pattern.render) ++ "\n"

/-! ### The queries -/

namespace Query

/-- A pattern that captures nodes of one kind as symbols of the given sort. -/
def symbol (kind sort : String) (children : List Pattern) : Pattern :=
  Forest.tree { test := .kind kind, field := "", lacks := [], capture := "definition." ++ sort }
    children

/-- A part of a pattern that is not captured. -/
def part (field kind : String) (children : List Pattern) : Pattern :=
  Forest.tree { test := .kind kind, field, lacks := [], capture := "" } children

/-- A part of a name. -/
def namePart (field : String) (test : KindTest) : Pattern :=
  Forest.tree { test, field, lacks := [], capture := "name" } []

/-- A symbol whose name is a child of some kind in the field `name`. -/
def named (kind sort nameKind : String) : Pattern :=
  symbol kind sort [namePart "name" (.kind nameKind)]

/-- A named symbol that has a body of some kind, not only a name. -/
def namedWithBody (kind sort nameKind bodyKind : String) : Pattern :=
  symbol kind sort [namePart "name" (.kind nameKind), part "body" bodyKind []]

/-- A variable that holds a function. -/
def arrowVariable : Pattern :=
  symbol "variable_declarator" "function"
    [namePart "name" (.kind "identifier"), part "value" "arrow_function" []]

def c : Query := [
  symbol "function_definition" "function"
    [part "declarator" "function_declarator" [namePart "declarator" (.kind "identifier")]],
  symbol "function_definition" "function"
    [part "declarator" "pointer_declarator"
      [part "declarator" "function_declarator" [namePart "declarator" (.kind "identifier")]]],
  namedWithBody "struct_specifier" "struct" "type_identifier" "field_declaration_list",
  namedWithBody "union_specifier" "union" "type_identifier" "field_declaration_list",
  namedWithBody "enum_specifier" "enum" "type_identifier" "enumerator_list",
  symbol "type_definition" "type" [namePart "declarator" (.kind "type_identifier")]]

def cpp : Query := [
  named "namespace_definition" "module" "namespace_identifier",
  namedWithBody "class_specifier" "class" "type_identifier" "field_declaration_list",
  namedWithBody "struct_specifier" "struct" "type_identifier" "field_declaration_list",
  namedWithBody "enum_specifier" "enum" "type_identifier" "enumerator_list",
  symbol "function_definition" "function"
    [part "declarator" "function_declarator"
      [namePart "declarator" (.oneOf ["identifier", "field_identifier", "qualified_identifier",
        "destructor_name", "operator_name"])]]]

def go : Query := [
  named "function_declaration" "function" "identifier",
  named "method_declaration" "method" "field_identifier",
  symbol "type_declaration" "type" [part "" "type_spec" [namePart "name" (.kind "type_identifier")]]]

def javascript : Query := [
  named "class_declaration" "class" "identifier",
  named "function_declaration" "function" "identifier",
  named "generator_function_declaration" "function" "identifier",
  named "method_definition" "method" "property_identifier",
  arrowVariable]

def python : Query := [
  named "class_definition" "class" "identifier",
  named "function_definition" "function" "identifier"]

def rust : Query := [
  named "mod_item" "module" "identifier",
  named "struct_item" "struct" "type_identifier",
  named "enum_item" "enum" "type_identifier",
  named "union_item" "union" "type_identifier",
  named "trait_item" "trait" "type_identifier",
  Forest.tree
    { test := .kind "impl_item", field := "", lacks := ["trait"], capture := "definition.impl" }
    [namePart "type" .anyNamed],
  symbol "impl_item" "impl"
    [namePart "trait" .anyNamed, namePart "" (.keyword "for"), namePart "type" .anyNamed],
  named "function_item" "function" "identifier",
  named "function_signature_item" "function" "identifier",
  named "macro_definition" "macro" "identifier"]

def typescript : Query := [
  named "class_declaration" "class" "type_identifier",
  named "abstract_class_declaration" "class" "type_identifier",
  named "interface_declaration" "interface" "type_identifier",
  named "enum_declaration" "enum" "identifier",
  named "type_alias_declaration" "type" "type_identifier",
  named "internal_module" "module" "identifier",
  named "function_declaration" "function" "identifier",
  named "method_definition" "method" "property_identifier",
  named "abstract_method_signature" "method" "property_identifier",
  arrowVariable]

end Query

end SymbolPaths
