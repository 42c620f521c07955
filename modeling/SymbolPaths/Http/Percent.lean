import SymbolPaths.Number.Digit
import SymbolPaths.Text.Utf8

/-!
# Percent signs

In the parts of an address some characters are not written as they are, but by
their bytes, each as a percent sign with two digits. Which characters these are
depends on the part.
-/

namespace SymbolPaths.Http.Percent

/-- The characters that are written as they are nowhere. -/
def isControl (c : Char) : Bool := c.toNat < 0x20 || 0x7F ≤ c.toNat

/-- The characters that are not written as they are in a fragment. -/
def inFragment (c : Char) : Bool := isControl c || " \"<>\x60".toList.contains c

/-- The characters that are not written as they are in a path. -/
def inPath (c : Char) : Bool := inFragment c || "#?\x7b\x7d".toList.contains c

/-- The characters that are not written as they are in a query. -/
def inQuery (c : Char) : Bool := isControl c || " \"#<>'".toList.contains c

/-- A character by its bytes. -/
def encode (c : Char) : List Char :=
  (Text.encode (String.ofList [c])).flatMap fun b => '%' :: Number.hexDigits 2 b.toNat

/-- A text with the characters of a set written by their bytes. -/
def escape (set : Char → Bool) (cs : List Char) : List Char :=
  cs.flatMap fun c => if set c then encode c else [c]

end SymbolPaths.Http.Percent
