import SymbolPaths.Text.Lines
import SymbolPaths.Yaml.Inline
import SymbolPaths.Yaml.Scalar.Block

/-!
# Documents

Sequences and mappings are laid out in lines: the entries of one collection
start at the same column, and what belongs to an entry is indented further.
The entries of a sequence that is the value of a mapping may start at the
column of the mapping. A collection starts only where a line does, or after
the mark of another entry.

A text holds one document. It may start with directives and has then to be
separated from them by three hyphens; three dots may end it.

* `readDocument?` reads the document of a text.
-/

namespace SymbolPaths.Yaml

/-- Reads a key with the colon after it. -/
def readKey? (floor fuel : Nat) (c : Cursor) : Option (Node × Cursor) := do
  let (key, c') ← readInline false floor fuel c
  let c' := c'.move (skipBlanks c'.mark c'.rest)
  if c'.isAt ':' && isKeyOf c.mark c'.mark then some (key, c'.drop 1) else none

mutual

/-- Reads a node that belongs to an entry: what is indented to `floor`, or stands
    in the line of the entry, which is `line`. On that line a collection may
    start only if it is `fresh`. If `aligned`, a sequence may start one column
    before. If there is no such node, it is absent. -/
def readNode (floor : Nat) (aligned fresh : Bool) (line : Nat) :
    Nat → Properties → Cursor → Option (Node × Cursor)
  | 0, _, _ => none
  | fuel + 1, p, c =>
    let below := line < c.mark.line
    let fresh := fresh || below
    if c.isDone || (below && c.mark.column < floor &&
        !(aligned && c.isAt '-' && c.mark.column + 1 == floor)) then
      some (p.absent c)
    else if c.isAt '-' then
      if fresh then do
        let (items, c') ← readSequence c.mark.column fuel c
        some (p.settle (.sequence items) c')
      else none
    else if c.isAt '?' || (readKey? floor fuel c).isSome then
      if fresh then do
        let (entries, c') ← readMapping c.mark.column fuel c
        some (p.settle (.mapping entries) c')
      else none
    else if c.isBeforeProperty then do
      let (p, c') ← c.readProperty? false p
      readNode floor aligned false c.mark.line fuel p (← c'.gap? false true)
    else if c.isBefore '*' then if p.isSome then none else c.readAlias?
    else if c.isBefore '|' || c.isBefore '>' then do
      let (text, s) ← readBlock (c.isBefore '>') floor (c.toSpot.drop 1)
      some (p.scalar (if c.isBefore '|' then .literal else .other) text (c.move s))
    else readContent false floor fuel p c
termination_by structural fuel => fuel

/-- Reads the entries of a sequence from one on, which start at a column. -/
def readSequence (column : Nat) : Nat → Cursor → Option (List Node × Cursor)
  | 0, _ => none
  | fuel + 1, c => do
    let (item, c') ← readNode (column + 1) false true c.mark.line fuel Properties.none
      (← (c.drop 1).gap? false false)
    let c' ← c'.gap? false true
    if !c'.isDone && c'.mark.column == column && c'.isAt '-' then do
      let (items, c') ← readSequence column fuel c'
      some (item :: items, c')
    else some ([item], c')
termination_by structural fuel => fuel

/-- Reads the entries of a mapping from one on, which start at a column. -/
def readMapping (column : Nat) : Nat → Cursor → Option (List (Node × Node) × Cursor)
  | 0, _ => none
  | fuel + 1, c => do
    let (entry, c') ← readEntry column fuel c
    let c' ← c'.gap? false true
    if !c'.isDone && c'.mark.column == column then do
      let (entries, c') ← readMapping column fuel c'
      some (entry :: entries, c')
    else some ([entry], c')
termination_by structural fuel => fuel

/-- Reads an entry of a mapping: after a question mark a key of any kind, and its
    value after a colon in the same column; otherwise a key with a colon in the
    same line. -/
def readEntry (column : Nat) : Nat → Cursor → Option ((Node × Node) × Cursor)
  | 0, _ => none
  | fuel + 1, c =>
    if c.isAt '?' then do
      let (key, c') ← readNode (column + 1) true true c.mark.line fuel Properties.none
        (← (c.drop 1).gap? false false)
      let c' ← c'.gap? false true
      if !c'.isDone && c'.mark.column == column && c'.isAt ':' then do
        let (value, c'') ← readNode (column + 1) true true c'.mark.line fuel Properties.none
          (← (c'.drop 1).gap? false false)
        some ((key, value), c'')
      else some ((key, .absent), c')
    else do
      let (key, c') ← readKey? (column + 1) fuel c
      let (value, c'') ← readNode (column + 1) true false c'.mark.line fuel Properties.none
        (← c'.gap? false true)
      some ((key, value), c'')
termination_by structural fuel => fuel

end

/-! ### Directives -/

/-- What the directives before a document say. -/
structure Directives where
  version : Bool
  handles : List (String × String)
  deriving DecidableEq, Repr, Inhabited

/-- The parts of a line that blanks separate, up to a comment. -/
def lineWords (line : List Char) : List (List Char) :=
  let words := Text.pieces ' ' (line.map fun c => if c = '\t' then ' ' else c)
  (words.filter (· ≠ [])).takeWhile fun w => w.head? != some '#'

/-- Whether a text is a handle of tags. -/
def isHandle (w : List Char) : Bool :=
  match w with
  | [] => false
  | c :: cs =>
    c == '!' && (cs.isEmpty || (cs.getLast? == some '!' && cs.dropLast.all isWordChar))

/-- Whether a text is the number of a known version: 1.1 or 1.2. -/
def isVersion (w : List Char) : Bool :=
  let part (digits : List Char) : Option Nat :=
    if digits.length ≤ 9 then Number.ofDigits? 10 digits else none
  match Text.pieces '.' w with
  | [major, minor] => part major == some 1 && (part minor == some 1 || part minor == some 2)
  | _ => false

/-- Adds what a directive says; the version and each handle may be told only once.
    A comment may follow the version without a blank. -/
def Directives.add? (d : Directives) (line : List Char) : Option Directives :=
  match lineWords line with
  | [] => none
  | name :: words =>
    if name = "YAML".toList then
      match lineWords (line.takeWhile (· ≠ '#')) with
      | [_, version] =>
        if !d.version && isVersion version then some { d with version := true } else none
      | _ => none
    else if name = "TAG".toList then
      match words with
      | [handle, start] =>
        if isHandle handle && d.handles.all (·.1 ≠ String.ofList handle) then do
          let (bytes, rest) ← readTagBytes true start
          let text ← Text.decode? bytes
          if rest.isEmpty && text != "" then
            some { d with handles := d.handles ++ [(String.ofList handle, text)] }
          else none
        else none
      | _ => none
    else none

/-- Reads the directives at the start of a text, as many as `fuel`. -/
def readDirectives (d : Directives) : Nat → Spot → Option (Directives × Spot)
  | 0, _ => none
  | fuel + 1, s =>
    if s.mark.column == 0 && s.rest.head? == some '%' then do
      let line := s.rest.takeWhile fun c => !isBreak c
      let d ← d.add? line.tail
      readDirectives d fuel (← skipGap false true false (s.mark.skip line.length)
        (s.rest.drop line.length))
    else some (d, s)

/-! ### The document -/

/-- Skips three dots at the start of lines, as often as they come, but at most
    `fuel` times. -/
def skipEnds : Nat → Cursor → Option Cursor
  | 0, c => some c
  | fuel + 1, c =>
    if c.mark.column == 0 && isRule '.' c.rest then do skipEnds fuel (← (c.drop 3).gap? false true)
    else some c

/-- Skips the mark of the order of bytes at the start of a text. -/
def skipOrderMark : List Char → Spot
  | [] => ⟨Mark.start, []⟩
  | c :: cs =>
    if c = orderMark then ⟨Mark.start.after c, cs⟩ else ⟨Mark.start, c :: cs⟩

/-- Reads the only document from a place on; `fresh` tells whether a collection may
    start on the first line. -/
def readRoot? (fresh : Bool) (fuel : Nat) (c : Cursor) : Option Node := do
  let (node, c') ← readNode 0 false fresh c.mark.line fuel Properties.none (← c.gap? false !fresh)
  let c' ← c'.gap? false true
  if c'.isDone then do
    let c' ← skipEnds fuel c'
    if c'.rest.isEmpty then some node else none
  else none

/-- The only document of a text. A text that says nothing has an absent node. -/
def readDocument? (text : List Char) : Option Node :=
  let cs := normalize text
  let fuel := 4 * cs.length + 8
  if cs.all isReadable then do
    let first := skipOrderMark cs
    let s ← skipGap false false false first.mark first.rest
    let (d, s') ← readDirectives ⟨false, []⟩ fuel s
    let c : Cursor := { toSpot := s', anchors := [], handles := d.handles }
    if c.mark.column == 0 && isRule '-' c.rest then readRoot? false fuel (c.drop 3)
    else if s'.mark.index != s.mark.index || (c.mark.column == 0 && isRule '.' c.rest) then none
    else readRoot? true fuel c
  else none

end SymbolPaths.Yaml
