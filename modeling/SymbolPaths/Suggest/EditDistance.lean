/-!
# Edit distance

How many characters have to be inserted, removed or replaced to make one text
of another. The table of distances between the beginnings of the two texts is
computed row by row: the row of a beginning of the first text has an entry for
every beginning of the second.
-/

namespace SymbolPaths

namespace EditDistance

/-- The rest of the row after `left`, its last entry so far: at each character of
    the second text the cheapest of replacing it by `c` or keeping it, of
    removing `c`, and of inserting the character. -/
def extendRow (c : Char) : Nat → List Char → List Nat → List Nat
  | left, d :: ds, diag :: up :: above =>
    let entry := min (min (left + 1) (up + 1)) (diag + if c = d then 0 else 1)
    entry :: extendRow c entry ds (up :: above)
  | _, _, _ => []

/-- The row after one more character of the first text. -/
def nextRow (target : List Char) (row : List Nat) (c : Char) : List Nat :=
  match row with
  | [] => []
  | first :: _ => (first + 1) :: extendRow c (first + 1) target row

/-- The row of the empty beginning of the first text. -/
def firstRow (target : List Char) : List Nat := List.range (target.length + 1)

end EditDistance

/-- The edit distance of two texts. -/
def editDistance (source target : List Char) : Nat :=
  (source.foldl (EditDistance.nextRow target) (EditDistance.firstRow target)).getLastD 0

end SymbolPaths
