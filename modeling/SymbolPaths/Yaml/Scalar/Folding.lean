import SymbolPaths.Yaml.Character

/-!
# Folding

Where a scalar goes on in another line, the gap between the lines stands for
something else than what is written: blanks do not count, a single line feed
is a space, and of several line feeds the first does not count. Line ends that
are kept are kept here as well.
-/

namespace SymbolPaths.Yaml

/-- What a gap inside a scalar stands for. After an escaped line end (`escaped`)
    only the ends of further lines count. -/
def foldGap (escaped : Bool) (gap : List Char) : List Char :=
  match gap.filter isBreak with
  | [] => if escaped then [] else gap
  | b :: bs =>
    if escaped || b ≠ '\n' then b :: bs else if bs.isEmpty then [' '] else bs

end SymbolPaths.Yaml
