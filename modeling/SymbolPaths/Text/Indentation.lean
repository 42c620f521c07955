import SymbolPaths.Text.Blank
import SymbolPaths.Text.Lines

/-!
# Indentation

Two ways to move code to the left. `dedent` removes the blanks that the lines
of a whole text have in common; a tab and a space are different blanks.
`dropColumns` removes a fixed number of characters from every line but the
first, for a piece of code cut out of a file at some column.

* `narrow_prefix`: narrowing never invents indentation.
-/

namespace SymbolPaths.Text

/-- What is left of an indentation on a line that departs from it: the
    characters before the first difference. A line that only ends early, or
    goes on, leaves it alone. -/
def narrow : List Char → List Char → List Char
  | i :: indent, c :: line => if i = c then i :: narrow indent line else []
  | indent, _ => indent

/-- The indentation that the lines share: that of the first line with ink,
    narrowed by every line after it. -/
def commonIndent (ls : List (List Char)) : List Char :=
  match ls.dropWhile fun l => !hasInk l with
  | [] => []
  | l :: rest => rest.foldl narrow (l.takeWhile isBlank)

/-- A line without its indentation; one without ink comes out empty. -/
def dropIndent (indent line : List Char) : List Char :=
  if hasInk line && indent.isPrefixOf line then line.drop indent.length else []

/-- The text without the indentation that its lines share. Line ends become
    line feeds, and the last one is there if it was. -/
def dedent (cs : List Char) : List Char :=
  let ls := lines cs
  let out := ls.flatMap fun l => dropIndent (commonIndent ls) l ++ ['\n']
  if cs.getLast? = some '\n' then out else out.dropLast

/-- The text with `columns` characters less on every line but the first. With
    no columns to drop the text stays as it is, carriage returns included. -/
def dropColumns (columns : Nat) (cs : List Char) : List Char :=
  if columns = 0 then cs
  else match (pieces '\n' cs).map dropReturn with
    | [] => []
    | l :: ls => join '\n' (l :: ls.map (List.drop columns))

theorem narrow_prefix (indent line : List Char) : narrow indent line <+: indent := by
  fun_induction narrow indent line with
  | case1 i indent line ih => exact List.cons_prefix_cons.2 ⟨rfl, ih⟩
  | case2 => exact List.nil_prefix
  | case3 => exact List.prefix_refl _

end SymbolPaths.Text
