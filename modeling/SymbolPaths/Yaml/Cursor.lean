import SymbolPaths.Yaml.Character
import SymbolPaths.Yaml.Node

/-!
# Reading positions

Where the reading of a text has come: the position of the next character, the
characters that are left, and what was given a name so far. A document ends
with its text, or at a line that starts with three hyphens or three dots.
-/

namespace SymbolPaths.Yaml

/-- The position of a character: how many there are before it, how many lines,
    and how many characters on its own line. -/
structure Mark where
  index : Nat
  line : Nat
  column : Nat
  deriving DecidableEq, Repr, Inhabited

namespace Mark

/-- The position of the first character. -/
def start : Mark := ⟨0, 0, 0⟩

/-- The position after a character. -/
def after (m : Mark) (c : Char) : Mark :=
  if isBreak c then ⟨m.index + 1, m.line + 1, 0⟩ else ⟨m.index + 1, m.line, m.column + 1⟩

/-- The position after `n` characters of the same line. -/
def skip (m : Mark) (n : Nat) : Mark := ⟨m.index + n, m.line, m.column + n⟩

end Mark

/-- A place in a text. -/
structure Spot where
  mark : Mark
  rest : List Char
  deriving DecidableEq, Repr, Inhabited

/-- Whether a line starts with three times the same character and the word ends
    there. -/
def isRule (c : Char) : List Char → Bool
  | x :: y :: z :: rest => x == c && y == c && z == c && endsWord rest
  | _ => false

/-- Whether the document ends before the characters at a position. -/
def endsDocument (m : Mark) (cs : List Char) : Bool :=
  m.column == 0 && (isRule '-' cs || isRule '.' cs)

namespace Spot

/-- Whether the document is over. -/
def isDone (s : Spot) : Bool := s.rest.isEmpty || endsDocument s.mark s.rest

/-- Whether an indicator comes next that has to end the word. -/
def isAt (s : Spot) (indicator : Char) : Bool :=
  match s.rest with
  | c :: cs => c == indicator && endsWord cs
  | [] => false

/-- The place after `n` characters of the same line. -/
def drop (s : Spot) (n : Nat) : Spot := ⟨s.mark.skip n, s.rest.drop n⟩

end Spot

/-- Skips blanks, comments and line ends. Tabs may stand only on lines that allow
    them: on the first one by `tabs`, on others in `flow` collections. -/
def skipGap (flow tabs comment : Bool) (m : Mark) : List Char → Option Spot
  | [] => some ⟨m, []⟩
  | c :: cs =>
    if isBreak c then skipGap flow flow false (m.after c) cs
    else if comment then skipGap flow tabs true (m.after c) cs
    else if c = ' ' then skipGap flow tabs false (m.after c) cs
    else if c = '\t' then if tabs then skipGap flow tabs false (m.after c) cs else none
    else if c = '#' then skipGap flow tabs true (m.after c) cs
    else some ⟨m, c :: cs⟩

/-- Skips blanks. -/
def skipBlanks (m : Mark) : List Char → Spot
  | [] => ⟨m, []⟩
  | c :: cs => if isBlank c then skipBlanks (m.after c) cs else ⟨m, c :: cs⟩

/-- A node that was given a name, with the position at which it was. -/
structure Anchor where
  name : String
  index : Nat
  node : Node
  deriving Repr, Inhabited

/-- How far the reading of a document has come. -/
structure Cursor extends Spot where
  /-- The nodes with names, the latest first. -/
  anchors : List Anchor
  /-- The tags that handles are short for. -/
  handles : List (String × String)
  deriving Repr, Inhabited

namespace Cursor

/-- The same reading at another place. -/
def move (c : Cursor) (s : Spot) : Cursor := { c with toSpot := s }

/-- Skips a gap. -/
def gap? (c : Cursor) (flow tabs : Bool) : Option Cursor :=
  (skipGap flow tabs false c.mark c.rest).map c.move

/-- Skips `n` characters of the same line. -/
def drop (c : Cursor) (n : Nat) : Cursor := c.move (c.toSpot.drop n)

/-- Whether a character comes next. -/
def isBefore (c : Cursor) (x : Char) : Bool := c.rest.head? == some x

/-- Gives a name to the node that is about to be read. -/
def announce (c : Cursor) (name : String) (index : Nat) : Cursor :=
  { c with anchors := ⟨name, index, .enclosing⟩ :: c.anchors }

/-- Keeps the node that was given a name at a position. -/
def settle (c : Cursor) (name : String) (index : Nat) (node : Node) : Cursor :=
  { c with
    anchors := c.anchors.map fun a =>
      if a.name = name ∧ a.index = index then { a with node } else a }

/-- The node of a name. -/
def named? (c : Cursor) (name : String) : Option Node :=
  (c.anchors.find? (·.name = name)).map (·.node)

end Cursor

end SymbolPaths.Yaml
