import SymbolPaths.Text.Utf8
import SymbolPaths.Yaml.Cursor
import SymbolPaths.Yaml.Scalar.Quoted

/-!
# Properties of nodes

Before a node there may be its tag and an anchor, a name by which an alias
refers to it further down. Each may stand there at most once. A tag is written
in full or by a handle and the rest; a handle that was not declared is short
for nothing.
-/

namespace SymbolPaths.Yaml

/-- The properties of a node: its name, with the position of the anchor, and its
    tag. -/
structure Properties where
  anchor : Option (String × Nat)
  tag : Option String
  deriving DecidableEq, Repr, Inhabited

namespace Properties

/-- No properties. -/
def none : Properties := ⟨.none, .none⟩

/-- Whether there are properties. -/
def isSome (p : Properties) : Bool := p.anchor.isSome || p.tag.isSome

/-- Gives a node that was read its name. -/
def settle (p : Properties) (node : Node) (c : Cursor) : Node × Cursor :=
  match p.anchor with
  | .none => (node, c)
  | some (name, index) => (node, c.settle name index node)

/-- A scalar with its properties. Before a text the tag that is only a mark says
    nothing. -/
def scalar (p : Properties) (form : ScalarForm) (text : List Char) (c : Cursor) : Node × Cursor :=
  p.settle (.scalar form (p.tag.filter (· ≠ "!")) (String.ofList text)) c

/-- The scalar that stands where nothing was written but properties. -/
def absent (p : Properties) (c : Cursor) : Node × Cursor := p.settle (.scalar .plain p.tag "") c

end Properties

/-- Reads the name of an anchor or of an alias and tells its length. -/
def readName? (cs : List Char) : Option (String × Nat) :=
  let name := cs.takeWhile isWordChar
  let rest := cs.dropWhile isWordChar
  let ends := endsWord rest || "?:,]\x7d%@\x60".toList.any fun x => rest.head? == some x
  if name.isEmpty || !ends then none else some (String.ofList name, name.length)

/-- The tag that a handle is short for, if nothing else was declared. -/
def standardHandles : List (String × String) := [("!", "!"), ("!!", "tag:yaml.org,2002:")]

/-- The tag of nodes that are null. -/
def nullTag : String := "tag:yaml.org,2002:null"

/-- The tag of truth values. -/
def boolTag : String := "tag:yaml.org,2002:bool"

/-- The tag of whole numbers. -/
def intTag : String := "tag:yaml.org,2002:int"

/-- Whether a scalar may stand for what a tag says: every plain scalar, and a
    literal one that has the tag. -/
def ScalarForm.admits (form : ScalarForm) (tag : Option String) (expected : String) : Bool :=
  form == .plain || (form == .literal && tag == some expected)

/-- Whether a character may stand in a tag; marks of flow collections may only if
    the tag is written in full. -/
def isTagChar (full : Bool) (c : Char) : Bool :=
  isWordChar c || ";/?:@&=+$.!~*'()".toList.contains c || (full && ",[]".toList.contains c)

/-- Reads the characters of a tag as bytes; a percent sign and two digits are a
    byte. -/
def readTagBytes (full : Bool) : List Char → Option (Bytes × List Char)
  | [] => some ([], [])
  | c :: cs =>
    if c = '%' then
      match cs with
      | a :: b :: rest => do
        let n ← Number.ofDigits? 16 [a, b]
        let (bytes, rest) ← readTagBytes full rest
        some (n.toUInt8 :: bytes, rest)
      | _ => none
    else if isTagChar full c then
      (readTagBytes full cs).map fun (bytes, rest) => (c.toNat.toUInt8 :: bytes, rest)
    else some ([], c :: cs)

/-- Reads a tag from behind its exclamation mark. -/
def readTag? (handles : List (String × String)) (flow : Bool) (cs : List Char) :
    Option (String × List Char) := do
  let expand (handle : String) (bytes : Bytes) : Option String := do
    let start ← (handles ++ standardHandles).lookup handle
    let rest ← Text.decode? bytes
    some (start ++ rest)
  let word := cs.takeWhile isWordChar
  let (tag, rest) ←
    if cs.head? == some '<' then do
      let (bytes, rest) ← readTagBytes true cs.tail
      if bytes.isEmpty || rest.head? != some '>' then none
      else (Text.decode? bytes).map (·, rest.tail)
    else if (cs.drop word.length).head? == some '!' then do
      let (bytes, rest) ← readTagBytes false (cs.drop (word.length + 1))
      if bytes.isEmpty then none
      else (expand ("!" ++ String.ofList word ++ "!") bytes).map (·, rest)
    else do
      let (bytes, rest) ← readTagBytes false cs
      if bytes.isEmpty then some ("!", rest) else (expand "!" bytes).map (·, rest)
  if endsWord rest || (flow && rest.head? == some ',') then some (tag, rest) else none

namespace Cursor

/-- Whether a property comes next. -/
def isBeforeProperty (c : Cursor) : Bool := c.isBefore '&' || c.isBefore '!'

/-- Reads a property that comes next, if it is not there already. -/
def readProperty? (c : Cursor) (flow : Bool) (p : Properties) : Option (Properties × Cursor) :=
  if c.isBefore '&' && p.anchor.isNone then do
    let (name, n) ← readName? c.rest.tail
    some ({ p with anchor := some (name, c.mark.index) },
      (c.drop (n + 1)).announce name c.mark.index)
  else if c.isBefore '!' && p.tag.isNone then do
    let (tag, rest) ← readTag? c.handles flow c.rest.tail
    some ({ p with tag := some tag }, c.drop (c.rest.length - rest.length))
  else none

/-- Reads the node that an alias refers to. -/
def readAlias? (c : Cursor) : Option (Node × Cursor) := do
  let (name, n) ← readName? c.rest.tail
  let node ← c.named? name
  some (node, c.drop (n + 1))

end Cursor

end SymbolPaths.Yaml
