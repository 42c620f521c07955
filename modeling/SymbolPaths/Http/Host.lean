import SymbolPaths.Http.Percent
import SymbolPaths.Text.Lines

/-!
# Hosts

The host of an address is a name, a number of 32 bits that is written in parts
with dots between them, or a number of 128 bits in brackets, in groups with
colons between them. A name that ends like a number has to be one. However a
number was written, its normal form is always the same: four parts of a byte
each, or eight groups of two bytes each, of which the longest run of zeros is
left out.

A port may follow the host.
-/

namespace SymbolPaths.Http.Host

/-! ### Numbers of 32 bits -/

/-- A part of a number, written in base 16 after a zero and the letter x, in base 8
    after a zero, and otherwise in base 10. -/
def part? (cs : List Char) : Option Nat :=
  match cs with
  | [] => none
  | [c] => Number.ofDigits? 10 [c]
  | c :: d :: rest =>
    if c = '0' ∧ (d = 'x' ∨ d = 'X') then
      if rest.isEmpty then some 0 else Number.ofDigits? 16 rest
    else if c = '0' then Number.ofDigits? 8 (d :: rest)
    else Number.ofDigits? 10 (c :: d :: rest)

/-- The parts of a name. A dot at its end does not count. -/
def nameParts (name : List Char) : List (List Char) :=
  let parts := Text.pieces '.' name
  if parts.length > 1 ∧ parts.getLast? = some [] then parts.dropLast else parts

/-- Whether the last part of a name is a number. -/
def endsInNumber (name : List Char) : Bool :=
  (nameParts name).getLast?.any fun part =>
    (!part.isEmpty && part.all Char.isDigit) || (part? part).isSome

/-- The number of at most four parts. The last part stands for as many bytes as are
    not told by the others, which are one byte each. -/
def ofParts? (parts : List Nat) : Option Nat :=
  match parts.getLast? with
  | none => none
  | some last =>
    let bytes := parts.dropLast
    if 4 < parts.length || bytes.any (255 < ·) || 1 <<< (8 * (4 - bytes.length)) ≤ last then none
    else some (bytes.zipIdx.foldl (fun n (b, i) => n + b <<< (8 * (3 - i))) last)

/-- A number as four bytes. -/
def writeParts (n : Nat) : List Char :=
  Text.join '.' ([n >>> 24, (n >>> 16) % 256, (n >>> 8) % 256, n % 256].map (Nat.toDigits 10))

/-! ### Numbers of 128 bits -/

/-- A byte in base 10, as one of four. -/
def byte? (cs : List Char) : Option Nat :=
  if 1 < cs.length && cs.head? == some '0' then none
  else (Number.ofDigits? 10 cs).filter (· < 256)

/-- The groups that a group stands for: itself, or two of them if it is written as
    four bytes. -/
def group? (final : Bool) (cs : List Char) : Option (List Nat) :=
  if final && cs.contains '.' then
    match (Text.pieces '.' cs).mapM byte? with
    | some [a, b, c, d] => some [a * 256 + b, c * 256 + d]
    | _ => none
  else if cs.length ≤ 4 then (Number.ofDigits? 16 cs).map ([·])
  else none

/-- The groups with colons between them; only at the end may there be one in bytes. -/
def groups? (final : Bool) : List (List Char) → Option (List Nat)
  | [] => some []
  | [g] => group? final g
  | g :: h :: rest => do
    let first ← group? false g
    let others ← groups? final (h :: rest)
    some (first ++ others)

/-- The part of a text before two colons, and the part after them if they are
    there. -/
def cutAtColons : List Char → List Char × Option (List Char)
  | [] => ([], none)
  | c :: cs =>
    if c = ':' ∧ cs.head? = some ':' then ([], some cs.tail)
    else
      let (before, after) := cutAtColons cs
      (c :: before, after)

/-- The eight groups of a number. Zeros may be left out where two colons are. -/
def ofGroups? (cs : List Char) : Option (List Nat) :=
  match cutAtColons cs with
  | (all, none) => (groups? true (Text.pieces ':' all)).filter (·.length = 8)
  | (before, some after) => do
    let left ← if before.isEmpty then some [] else groups? false (Text.pieces ':' before)
    let right ← if after.isEmpty then some [] else groups? true (Text.pieces ':' after)
    if left.length + right.length < 8 then
      some (left ++ List.replicate (8 - left.length - right.length) 0 ++ right)
    else none

/-- How many zeros there are at the start of groups. -/
def zeros (groups : List Nat) : Nat := (groups.takeWhile (· = 0)).length

/-- Groups as a text. -/
def writeAll (groups : List Nat) : List Char :=
  Text.join ':' (groups.map (Nat.toDigits 16))

/-- A number without the first of the longest runs of at least two zeros. -/
def writeGroups (groups : List Nat) : List Char :=
  let runs := (List.range 8).map fun i => (i, zeros (groups.drop i))
  match runs.foldl (fun best run => if best.2 < run.2 then run else best) (0, 1) with
  | (_, 1) => writeAll groups
  | (start, length) =>
    writeAll (groups.take start) ++ ':' :: ':' :: writeAll (groups.drop (start + length))

/-! ### Hosts with ports -/

/-- The characters that no host has. -/
def isForbidden (c : Char) : Bool := "\x00\t\n\r #/:<>?@[\\]^|".toList.contains c

/-- The characters that no name has. -/
def isForbiddenInName (c : Char) : Bool :=
  isForbidden c || c.toNat < 0x20 || c.toNat == 0x7F || c == '%'

/-- A name in normal form. -/
def ofName? (name : List Char) : Option (List Char) :=
  let name := name.map Char.toLower
  if name.isEmpty || name.any isForbiddenInName then none
  else if endsInNumber name then
    (((nameParts name).mapM part?).bind ofParts?).map writeParts
  else some name

/-- A name that only its scheme has a meaning for. -/
def ofOpaque? (name : List Char) : Option (List Char) :=
  if name.any isForbidden then none else some (Percent.escape Percent.isControl name)

/-- A port: digits that make a number of 16 bits. -/
def port? (cs : List Char) : Option Nat :=
  (Number.ofDigits? 10 cs).filter (· < UInt16.size)

/-- The port that is understood with a scheme. -/
def usualPort (scheme : String) : Option Nat :=
  [("http", 80), ("ws", 80), ("https", 443), ("wss", 443), ("ftp", 21)].lookup scheme

/-- The host and the port of an authority, in normal form. Who asks is told before
    an at sign and does not belong to them. -/
def ofAuthority? (scheme : String) (named : Bool) (authority : List Char) :
    Option (List Char) := do
  let server := (authority.reverse.takeWhile (· ≠ '@')).reverse
  let (name, rest) ← match server with
    | '[' :: cs =>
      match cs.dropWhile (· ≠ ']') with
      | ']' :: rest =>
        (ofGroups? (cs.takeWhile (· ≠ ']'))).map fun gs => ('[' :: writeGroups gs ++ [']'], rest)
      | _ => none
    | cs =>
      let name := cs.takeWhile (· ≠ ':')
      (if named then ofName? name else ofOpaque? name).map (·, cs.dropWhile (· ≠ ':'))
  match rest with
  | [] => some name
  | [':'] => some name
  | ':' :: digits =>
    let port ← port? digits
    some (if usualPort scheme = some port then name else name ++ ':' :: Nat.toDigits 10 port)
  | _ => none

end SymbolPaths.Http.Host
