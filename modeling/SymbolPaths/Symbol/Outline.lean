import SymbolPaths.Json
import SymbolPaths.Symbol.Tree

/-!
# Outlines

The symbols of a file as a forest, each over the symbols in it, and the two ways
to print it: as lines, indented by two columns for each level, or as a JSON
document in which every symbol holds those below it.

* `SymbolTree.outline`: the forest;
* `Outline.lines` and `Outline.document`: the two ways to print it.
-/

namespace SymbolPaths

namespace SymbolTree

/-- Symbols side by side, over `depth` levels of what is below them. -/
def outlineOf (t : SymbolTree) : Nat → List Nat → Forest Nat
  | 0, _ => .nil
  | depth + 1, numbers =>
    numbers.foldr (fun n after => .cons n (outlineOf t depth (t.children n)) after) .nil

/-- The symbols of a file. -/
def outline (t : SymbolTree) : Forest Nat := outlineOf t t.symbols.size (t.children 0)

/-- The first and the last line of a symbol, counted from one. -/
def lineNumbers (t : SymbolTree) (n : Nat) : Nat × Nat :=
  match t.get? n with
  | some s => (s.span.first.row + 1, s.span.last.row + 1)
  | none => (1, 1)

/-- The lines of a symbol, as a text. -/
def lineRange (t : SymbolTree) (n : Nat) : String :=
  let (first, last) := t.lineNumbers n
  if first = last then toString first else toString first ++ "-" ++ toString last

end SymbolTree

namespace Outline

/-- The nodes of a forest in preorder, each with its level. -/
def levels {α : Type} (level : Nat) : Forest α → List (Nat × α)
  | .nil => []
  | .cons a below after => (level, a) :: (levels (level + 1) below ++ levels level after)

/-- The line of a symbol. -/
def line (t : SymbolTree) (level n : Nat) : String :=
  String.ofList (List.replicate (2 * level) ' ') ++ t.name n ++ " [" ++ t.lineRange n ++ "] " ++
    (t.pathOf n).toText

/-- A forest of symbols as lines. -/
def lines (t : SymbolTree) (f : Forest Nat) : List String :=
  (levels 0 f).map fun (level, n) => line t level n

/-- A forest of symbols as documents. -/
def document (t : SymbolTree) : Forest Nat → List JsonValue
  | .nil => []
  | .cons n below after =>
    .record [
      ("name", .text (t.name n)), ("tag", .text (t.tag n)), ("path", .text (t.pathOf n).toText),
      ("start_line", .number (t.lineNumbers n).1), ("end_line", .number (t.lineNumbers n).2),
      ("children", .list (document t below))] :: document t after

end Outline

end SymbolPaths
