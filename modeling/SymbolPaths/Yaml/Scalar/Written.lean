import SymbolPaths.Number.Digit
import SymbolPaths.Yaml.Character
import SymbolPaths.Yaml.Scalar.Meaning

/-!
# Written texts

How a text is written as the value of an entry, so that it is read back as the
same text. A text of several lines is laid out as a block; any other is written
plainly if it would be read as it is, otherwise in single quotes, and in double
quotes with escapes where those cannot hold it either. Further lines are
indented by two columns.
-/

namespace SymbolPaths.Yaml

/-- The ways to write a text. -/
inductive TextStyle where
  | plain
  | single
  | double
  | block
  deriving DecidableEq, Repr, Inhabited

/-! ### The choice of a style -/

/-- Whether a character is a space or ends a line. -/
def isSpaceOrBreak (c : Char) : Bool := c == ' ' || isBreak c

/-- Whether a space and the end of a line stand next to each other, in an order. -/
def hasPair (first second : Char → Bool) : List Char → Bool
  | c :: d :: rest => (first c && second d) || hasPair first second (d :: rest)
  | _ => false

/-- Whether the lines of a text have spaces before their ends. -/
def hasTrailing (cs : List Char) : Bool := hasPair (· == ' ') isBreak cs

/-- Whether the lines of a text but the first start with spaces. -/
def hasLeading (cs : List Char) : Bool := hasPair isBreak (· == ' ') cs

/-- Whether a character means something else at the start of a plain scalar. -/
def marksStart : List Char → Bool
  | [] => false
  | c :: cs =>
    "#,[]\x7b\x7d&*!|>'\"%@\x60".toList.contains c || ("?:-".toList.contains c && endsWord cs)

/-- Whether something inside a plain scalar would end it. -/
def marksInside : List Char → Bool
  | c :: d :: rest =>
    (d == ':' && endsWord rest) || (isGap c && d == '#') || marksInside (d :: rest)
  | _ => false

/-- Whether a text starts like the line that ends a document. -/
def startsRule (cs : List Char) : Bool :=
  "---".toList.isPrefixOf cs || "...".toList.isPrefixOf cs

/-- Whether a text would be read as it is if it were written plainly. -/
def allowsPlain (cs : List Char) : Bool :=
  cs.all isPrintable && !cs.any isBreak && !(cs.head?.any (· == ' ')) &&
    !(cs.getLast?.any (· == ' ')) && !marksStart cs && !marksInside cs && !startsRule cs

/-- Whether a text may stand in single quotes. -/
def allowsSingle (cs : List Char) : Bool :=
  cs.all isPrintable && !hasTrailing cs && !hasLeading cs

/-- Whether a text may be laid out as a block. -/
def allowsBlock (cs : List Char) : Bool :=
  cs.all isPrintable && !hasTrailing cs && !(cs.getLast?.any (· == ' '))

/-- The style in which a text is written. -/
def TextStyle.of (cs : List Char) : TextStyle :=
  if cs.contains '\n' then if allowsBlock cs then .block else .double
  else if allowsPlain cs && !isValue cs then .plain
  else if allowsSingle cs then .single
  else .double

/-! ### Writing -/

/-- The indentation of the further lines of a text. -/
def margin : List Char := [' ', ' ']

/-- A text between single quotes; `fresh` tells whether a line has just ended. -/
def writeSingle (fresh : Bool) : List Char → List Char
  | [] => if fresh then margin else []
  | c :: cs =>
    if isBreak c then c :: writeSingle true cs
    else
      (if fresh then margin else []) ++ (if c = '\'' then [c, c] else [c]) ++ writeSingle false cs

/-- The letters that stand for characters after a backslash. -/
def escapeLetters : List (Char × Char) := [
  ('\x00', '0'), ('\x07', 'a'), ('\x08', 'b'), ('\t', 't'), ('\n', 'n'), ('\x0B', 'v'),
  ('\x0C', 'f'), ('\r', 'r'), ('\x1B', 'e'), ('"', '"'), ('\\', '\\'), ('\u0085', 'N'),
  ('\u2028', 'L'), ('\u2029', 'P')]

/-- A character between double quotes. -/
def writeEscaped (c : Char) : List Char :=
  match escapeLetters.lookup c with
  | some letter => ['\\', letter]
  | none =>
    if isPrintable c then [c]
    else if c.toNat < 0x100 then '\\' :: 'x' :: Number.hexDigits 2 c.toNat
    else if c.toNat < 0x10000 then '\\' :: 'u' :: Number.hexDigits 4 c.toNat
    else '\\' :: 'U' :: Number.hexDigits 8 c.toNat

/-- The lines of a block; `fresh` tells whether a line has just ended. -/
def writeLines (fresh : Bool) : List Char → List Char
  | [] => []
  | c :: cs =>
    if isBreak c then c :: writeLines true cs
    else (if fresh then margin else []) ++ c :: writeLines false cs

/-- What is told about a block before its lines: the indentation if the first line
    cannot tell it, and what becomes of the line ends after the last line. -/
def blockSigns (cs : List Char) : List Char :=
  (if cs.head?.any isSpaceOrBreak then ['2'] else []) ++
    match cs.reverse with
    | [] => ['-']
    | [c] => if isBreak c then ['+'] else ['-']
    | c :: d :: _ => if !isBreak c then ['-'] else if isBreak d then ['+'] else []

/-- A text as the value of an entry, up to the start of the next line. -/
def writeText (cs : List Char) : List Char :=
  match TextStyle.of cs with
  | .plain => cs ++ ['\n']
  | .single => '\'' :: writeSingle false cs ++ ['\'', '\n']
  | .double => '"' :: cs.flatMap writeEscaped ++ ['"', '\n']
  | .block =>
    '|' :: blockSigns cs ++ '\n' :: writeLines true cs ++
      if cs.getLast?.any isBreak then [] else ['\n']

end SymbolPaths.Yaml
