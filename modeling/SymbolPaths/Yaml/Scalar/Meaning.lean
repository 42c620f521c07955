import SymbolPaths.Number.Digit

/-!
# The meaning of plain scalars

A plain scalar may stand for nothing, for a truth value or for a number. What
stands for none of these is text.

* `isValue`: whether a text would not be read as text if it were written
  plainly.
-/

namespace SymbolPaths.Yaml

/-- The texts that stand for nothing. -/
def isNull (text : String) : Bool := ["~", "null", "Null", "NULL"].contains text

/-- The truth value that a text stands for. -/
def toBool? (text : String) : Option Bool :=
  if ["true", "True", "TRUE"].contains text then some true
  else if ["false", "False", "FALSE"].contains text then some false
  else none

/-! ### Whole numbers -/

/-- A text without a plus at its start. -/
def dropPlus : List Char → List Char
  | [] => []
  | c :: cs => if c = '+' then cs else c :: cs

/-- A text without a sign at its start. -/
def dropSign : List Char → List Char
  | [] => []
  | c :: cs => if c = '+' ∨ c = '-' then cs else c :: cs

/-- Whether a text, apart from a sign, is a zero and more digits. Such a text is no
    number. -/
def hasLeadingZero (cs : List Char) : Bool :=
  match dropSign cs with
  | c :: d :: rest => c == '0' && (d :: rest).all Char.isDigit
  | _ => false

/-- The number that a text without sign writes: in base 16, 8 or 2 after a zero
    and a letter, and otherwise in base 10. -/
def magnitude? : List Char → Option Nat
  | c :: d :: rest =>
    if c = '0' ∧ d = 'x' then Number.ofDigits? 16 rest
    else if c = '0' ∧ d = 'o' then Number.ofDigits? 8 rest
    else if c = '0' ∧ d = 'b' then Number.ofDigits? 2 rest
    else Number.ofDigits? 10 (c :: d :: rest)
  | cs => Number.ofDigits? 10 cs

/-- The whole number that a text stands for, if it is not negative. -/
def toNat? (text : String) : Option Nat :=
  if hasLeadingZero text.toList then none else magnitude? (dropPlus text.toList)

/-- The largest number that a text may stand for. -/
def largestNat : Nat := (1 <<< 128) - 1

/-- The largest number that may stand after a minus. -/
def largestMinus : Nat := 1 <<< 127

/-- Whether a text stands for a whole number. -/
def isInteger (text : List Char) : Bool :=
  !hasLeadingZero text &&
    match text with
    | [] => false
    | c :: cs =>
      if c = '-' then (magnitude? cs).any (· ≤ largestMinus)
      else (magnitude? (dropPlus text)).any (· ≤ largestNat)

/-! ### Other numbers -/

/-- A decimal number: its digits as a whole number, and the power of ten that it
    is multiplied by. -/
structure Decimal where
  digits : Nat
  exponent : Int
  deriving DecidableEq, Repr, Inhabited

/-- The exponent that a text writes after its letter. -/
def exponent? (cs : List Char) : Option Int :=
  match cs with
  | [] => none
  | c :: rest =>
    if c = '-' then (Number.ofDigits? 10 rest).map fun n => -(n : Int)
    else (Number.ofDigits? 10 (dropPlus (c :: rest))).map fun n => (n : Int)

/-- Reads a decimal number without sign: digits with or without a point among
    them, and an exponent or none. -/
def decimal? (cs : List Char) : Option Decimal :=
  let whole := cs.takeWhile Char.isDigit
  let rest := cs.dropWhile Char.isDigit
  let (places, rest) :=
    if rest.head? == some '.' then (rest.tail.takeWhile Char.isDigit, rest.tail.dropWhile Char.isDigit)
    else ([], rest)
  match Number.ofDigits? 10 (whole ++ places) with
  | none => none
  | some digits =>
    match rest with
    | [] => some ⟨digits, -(places.length : Int)⟩
    | c :: rest =>
      if c = 'e' ∨ c = 'E' then
        (exponent? rest).map fun e => ⟨digits, e - places.length⟩
      else none

/-- Whether a decimal number is below the limit of the 64-bit binary format: the
    point halfway between its largest number and the next power of two. -/
def Decimal.isFinite (d : Decimal) : Bool :=
  let limit := ((1 <<< 54) - 1) <<< 970
  if d.digits = 0 then true
  else if 0 ≤ d.exponent then
    if 400 < d.exponent then false else d.digits * Nat.pow 10 d.exponent.toNat < limit
  else if d.digits.log2 < 1000 then true
  else if (d.digits.log2 : Int) < -d.exponent then true
  else d.digits < limit * Nat.pow 10 (-d.exponent).toNat

/-- Whether a text stands for a number that need not be whole, for infinity, or
    for what is not a number. -/
def isFloat (text : List Char) : Bool :=
  let bare := dropSign text
  [".inf", ".Inf", ".INF"].contains (String.ofList bare) ||
    [".nan", ".NaN", ".NAN"].contains (String.ofList text) ||
    (decimal? bare).any Decimal.isFinite

/-- Whether a text is read as something else than text if it is written plainly,
    or might be taken for a number. -/
def isValue (text : List Char) : Bool :=
  text.isEmpty || isNull (String.ofList text) || (toBool? (String.ofList text)).isSome ||
    isInteger text || isFloat text || hasLeadingZero text

end SymbolPaths.Yaml
