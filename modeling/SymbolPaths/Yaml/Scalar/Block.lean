import SymbolPaths.Yaml.Cursor

/-!
# Block scalars

A scalar may be laid out as a block of lines that are indented further than
what is around it. After a bar the lines stand as they are, after an angle
bracket they are folded, but around lines that start with a blank they are not.
The indentation is told by a digit or found by the first line with text, and a
sign tells what becomes of the line ends after the last line: they are stripped
or kept, and otherwise only the first of them counts.
-/

namespace SymbolPaths.Yaml

/-- What becomes of the line ends after a block. -/
inductive Chomping where
  | strip
  | clip
  | keep
  deriving DecidableEq, Repr, Inhabited

/-- What is told about a block before its lines. -/
structure BlockHeader where
  chomping : Chomping
  /-- How far it is indented from what is around it, if told. -/
  indent : Option Nat
  deriving DecidableEq, Repr, Inhabited

namespace BlockHeader

/-- The sign at the start of a text, if there is one. -/
def chomping? : List Char → Option Chomping
  | c :: _ => if c = '+' then some .keep else if c = '-' then some .strip else none
  | [] => none

/-- The digit at the start of a text, if there is one. -/
def digit? : List Char → Option Nat
  | c :: _ => if c.isDigit then some (c.toNat - '0'.toNat) else none
  | [] => none

/-- Reads the sign and the digit, in either order. Tells how many characters they
    take. A digit must not be zero. -/
def read? (cs : List Char) : Option (BlockHeader × Nat) :=
  let result : BlockHeader × Nat :=
    match chomping? cs, digit? cs with
    | some sign, _ =>
      match digit? cs.tail with
      | some n => (⟨sign, some n⟩, 2)
      | none => (⟨sign, none⟩, 1)
    | none, some n =>
      match chomping? cs.tail with
      | some sign => (⟨sign, some n⟩, 2)
      | none => (⟨.clip, some n⟩, 1)
    | none, none => (⟨.clip, none⟩, 0)
  if result.1.indent = some 0 then none else some result

end BlockHeader

/-- The line ends before a line of a block: that of the line with text before it,
    those of the empty lines after that, and whether it started with a blank. -/
structure BlockGap where
  first : List Char
  others : List Char
  afterBlank : Bool
  deriving DecidableEq, Repr, Inhabited

/-- What the line ends before a line stand for; `beforeBlank` tells whether it
    starts with a blank. -/
def BlockGap.text (g : BlockGap) (folded beforeBlank : Bool) : List Char :=
  if folded && g.first == ['\n'] && !g.afterBlank && !beforeBlank then
    if g.others.isEmpty then [' '] else g.others
  else g.first ++ g.others

/-- The indentation of the first line of a block that has text, or of an emptier
    line before it that has more; `best` and `column` are those of the lines
    before and of the line so far. There must be no tabs. -/
def findIndent (best column : Nat) : List Char → Option Nat
  | [] => some (max best column)
  | c :: cs =>
    if c = ' ' then findIndent best (column + 1) cs
    else if c = '\t' then none
    else if isBreak c then findIndent (max best column) 0 cs
    else some (max best column)

/-- Reads the lines of a block; `inLine` tells whether a line with text was
    started, and `g` holds the line ends before. Tells the text, the line ends
    after it, and where the block ends. -/
def readLines (folded : Bool) (indent : Nat) (inLine : Bool) (g : BlockGap) (m : Mark) :
    List Char → Option (List Char × BlockGap × Spot)
  | [] => some ([], g, ⟨m, []⟩)
  | c :: cs =>
    if inLine then
      if isBreak c then readLines folded indent false { g with first := [c] } (m.after c) cs
      else (readLines folded indent true g (m.after c) cs).map fun (t, r) => (c :: t, r)
    else if isBreak c then
      readLines folded indent false { g with others := g.others ++ [c] } (m.after c) cs
    else if m.column < indent then
      if c = ' ' then readLines folded indent false g (m.after c) cs
      else if c = '\t' then none
      else some ([], g, ⟨m, c :: cs⟩)
    else
      (readLines folded indent true ⟨[], [], isBlank c⟩ (m.after c) cs).map fun (t, r) =>
        (g.text folded (isBlank c) ++ c :: t, r)

/-- What the line ends after a block leave of themselves. -/
def BlockGap.chomp (g : BlockGap) : Chomping → List Char
  | .strip => []
  | .clip => g.first
  | .keep => g.first ++ g.others

/-- Reads a block from behind its bar or angle bracket. What is around it is
    indented to less than `floor`. -/
def readBlock (folded : Bool) (floor : Nat) (s : Spot) : Option (List Char × Spot) := do
  let (header, n) ← BlockHeader.read? s.rest
  let s := skipBlanks (s.mark.skip n) (s.rest.drop n)
  let comment := match s.rest with
    | c :: _ => if c = '#' then s.rest.takeWhile fun c => !isBreak c else []
    | [] => []
  let s := s.drop comment.length
  let body ← match s.rest with
    | [] => some s
    | c :: cs => if isBreak c then some ⟨s.mark.after c, cs⟩ else none
  let indent ← match header.indent with
    | some n => some (floor - 1 + n)
    | none => (findIndent 0 0 body.rest).map fun n => max (max n floor) 1
  let (text, g, s) ← readLines folded indent false ⟨[], [], true⟩ body.mark body.rest
  some (text ++ g.chomp header.chomping, s)

end SymbolPaths.Yaml
