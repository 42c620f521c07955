/-!
# YAML documents

What a text in YAML says, apart from how it is laid out: scalars, sequences and
mappings. Of a scalar its form is kept, since not every form stands for
anything but text, and the tag that was put on it.
-/

namespace SymbolPaths.Yaml

/-- The forms of scalars. -/
inductive ScalarForm where
  | plain
  /-- A block of lines that stand as they are. -/
  | literal
  /-- Quoted or folded. -/
  | other
  deriving DecidableEq, Repr, Inhabited

/-- What a document, or a part of one, says. -/
inductive Node where
  | scalar (form : ScalarForm) (tag : Option String) (text : String)
  | sequence (items : List Node)
  | mapping (entries : List (Node × Node))
  /-- A node that this one is a part of. -/
  | enclosing
  deriving Repr, Inhabited

namespace Node

/-- The scalar that stands where nothing was written. -/
def absent : Node := scalar .plain none ""

end Node

end SymbolPaths.Yaml
