import SymbolPaths.Yaml.Property
import SymbolPaths.Yaml.Scalar.Plain

/-!
# Inline nodes

Nodes that do not depend on how lines are indented: plain and quoted scalars,
aliases, and flow collections, whose parts stand between brackets or braces
with commas between them. A part may be a key with a value: the colon after the
key has to stand in the line where the key started.

All functions take a number of steps that they may go down, which the number
of characters bounds.
-/

namespace SymbolPaths.Yaml

/-- The number of characters that a key may have at most. -/
def keyLimit : Nat := 1024

/-- Whether what started at a position can be the key of a colon at another one. -/
def isKeyOf (start colon : Mark) : Bool :=
  start.line == colon.line && colon.index ≤ start.index + keyLimit

/-- Reads properties, with a gap after each. There are at most two of them. -/
def readProperties (flow : Bool) (c : Cursor) : Option (Properties × Cursor) := do
  let step (p : Properties) (c : Cursor) : Option (Properties × Cursor) :=
    if c.isBeforeProperty then do
      let (p, c) ← c.readProperty? flow p
      some (p, ← c.gap? flow true)
    else some (p, c)
  let (p, c) ← step Properties.none c
  step p c

mutual

/-- Reads a node, in a flow collection or not. -/
def readInline (flow : Bool) (floor : Nat) : Nat → Cursor → Option (Node × Cursor)
  | 0, _ => none
  | fuel + 1, c =>
    if c.isBefore '*' then c.readAlias?
    else do
      let (p, c) ← readProperties flow c
      readContent flow floor fuel p c

/-- Reads a node without its properties. After properties the node may be left
    out. -/
def readContent (flow : Bool) (floor : Nat) : Nat → Properties → Cursor → Option (Node × Cursor)
  | 0, _, _ => none
  | fuel + 1, p, c =>
    if c.isBefore '[' then do
      let (parts, c) ← readParts floor fuel ']' (← (c.drop 1).gap? true true)
      let item : Node × Option Node → Node
        | (node, none) => node
        | (key, some value) => .mapping [(key, value)]
      some (p.settle (.sequence (parts.map item)) c)
    else if c.isBefore '\x7b' then do
      let (parts, c) ← readParts floor fuel '\x7d' (← (c.drop 1).gap? true true)
      some (p.settle (.mapping (parts.map fun (key, value) => (key, value.getD .absent))) c)
    else if c.isBefore '\'' then do
      let (text, s) ← readSingleQuoted [] (c.mark.skip 1) c.rest.tail
      some (p.scalar .other text (c.move s))
    else if c.isBefore '"' then do
      let (text, s) ← readDoubleQuoted 0 false [] (c.mark.skip 1) c.rest.tail
      some (p.scalar .other text (c.move s))
    else if startsPlain flow c.rest then do
      let (text, s) ← readPlain flow floor [] c.mark c.rest
      some (p.scalar .plain text (c.move s))
    else if p.isSome then some (p.absent c)
    else none

/-- Reads the parts of a flow collection up to its closing mark. A comma may
    follow the last part. -/
def readParts (floor : Nat) :
    Nat → Char → Cursor → Option (List (Node × Option Node) × Cursor)
  | 0, _, _ => none
  | fuel + 1, close, c =>
    if c.isBefore close then some ([], c.drop 1)
    else do
      let (part, c) ← readPart floor fuel close c
      let c ← c.gap? true true
      if c.isBefore ',' then do
        let (parts, c) ← readParts floor fuel close (← (c.drop 1).gap? true true)
        some (part :: parts, c)
      else if c.isBefore close then some ([part], c.drop 1)
      else none

/-- Reads a part of a flow collection: a node, or a key with its value. -/
def readPart (floor : Nat) : Nat → Char → Cursor → Option ((Node × Option Node) × Cursor)
  | 0, _, _ => none
  | fuel + 1, close, c =>
    if c.isBefore '?' then do
      let c ← (c.drop 1).gap? true true
      let (key, c) ←
        if c.isBefore ':' || c.isBefore ',' || c.isBefore close then some (Node.absent, c)
        else readInline true floor fuel c
      let c ← c.gap? true true
      if c.isBefore ':' then do
        let (value, c) ← readPartValue floor fuel close (← (c.drop 1).gap? true true)
        some ((key, some value), c)
      else some ((key, some .absent), c)
    else do
      let (node, c') ← readInline true floor fuel c
      let c' ← c'.gap? true true
      if c'.isBefore ':' && isKeyOf c.mark c'.mark then do
        let (value, c'') ← readPartValue floor fuel close (← (c'.drop 1).gap? true true)
        some ((node, some value), c'')
      else some ((node, none), c')

/-- Reads the value after a colon in a flow collection. It may be left out. -/
def readPartValue (floor : Nat) : Nat → Char → Cursor → Option (Node × Cursor)
  | 0, _, _ => none
  | fuel + 1, close, c =>
    if c.isBefore ',' || c.isBefore close then some (.absent, c)
    else readInline true floor fuel c

end

end SymbolPaths.Yaml
