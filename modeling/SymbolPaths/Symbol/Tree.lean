import SymbolPaths.Symbol.Occurrence
import SymbolPaths.TagPath
import SymbolPaths.Text.Indentation

/-!
# Symbol trees

The symbols of a file, each under the symbol that it is defined in. Symbols
have numbers: 0 is the root, which stands for the file, and the others follow
in the order in which they occurred, so a symbol may well have a smaller number
than the one around it.

The parent of a symbol is found by going up in the syntax tree to the nearest
node that is the node of a symbol. Where several symbols share a node, the last
of them is the parent of what is below.

* `SymbolTree.build` makes the tree;
* `SymbolTree.at?` looks a path up in an index, where the later of two symbols
  with the same path takes its place, and `SymbolTree.descend?` goes down from
  the root by one tag after the other;
* `SymbolTree.depthFirst` and `SymbolTree.breadthFirst` list the symbols.
-/

namespace SymbolPaths

/-- A symbol, or the root. -/
structure Symbol where
  /-- Its number in the tree. -/
  number : Nat
  name : String
  tag : String
  path : TagPath
  kind : String
  span : Span
  /-- The number of its parent; only the root has none. -/
  parent : Option Nat
  /-- The numbers of its children, in order. -/
  children : List Nat
  deriving DecidableEq, Repr, Inhabited

/-- The symbols of a file. -/
structure SymbolTree where
  /-- The symbols by their numbers. -/
  symbols : Array Symbol
  /-- The paths that can be looked up, the latest first. -/
  index : List (String × Nat)
  /-- The text of the file. -/
  text : String
  deriving DecidableEq, Repr, Inhabited

namespace SymbolTree

/-! ### Building -/

/-- The number of the last symbol whose node is `node`. -/
def ownerOf? (found : List Occurrence) (node : Nat) : Option Nat :=
  ((found.zipIdx 1).reverse.find? (·.1.node = node)).map (·.2)

/-- The number of the parent of a symbol at a node: the owner of the nearest node
    above that has one, or the root. -/
def parentAt (t : SourceTree) (found : List Occurrence) (node : Nat) : Nat :=
  ((t.above node).reverse.findSome? (ownerOf? found)).getD 0

/-- The tags on the way from the root to a symbol, by the parents and tags of all
    symbols. The way has at most `fuel` steps. -/
def tagsTo (parents : Array (Option Nat)) (tags : Array String) : Nat → Nat → List String
  | 0, _ => []
  | fuel + 1, n =>
    match parents.getD n none with
    | none => []
    | some p => tagsTo parents tags fuel p ++ [tags.getD n ""]

/-- The children of the root and of all symbols, by the parents of the symbols: one
    after the other, the symbols are put at the end of the list of their parent. -/
def childLists (parents : List Nat) : Array (List Nat) :=
  (parents.zipIdx 1).foldl (fun lists (p, n) => lists.modify p (· ++ [n]))
    (Array.replicate (parents.length + 1) [])

/-- The parents of the root and of the symbols, by their numbers. -/
def parentTable (t : SourceTree) (found : List Occurrence) : Array (Option Nat) :=
  (none :: found.map fun o => some (parentAt t found o.node)).toArray

/-- The tags of the root and of the symbols, by their numbers. -/
def tagTable (found : List Occurrence) : Array String :=
  ("" :: found.map fun o => tagOf o.name).toArray

/-- The tree of the symbols that occur in a file. -/
def build (t : SourceTree) (found : List Occurrence) (text : String) : SymbolTree :=
  let parents := parentTable t found
  let tags := tagTable found
  let lists := childLists (found.map fun o => parentAt t found o.node)
  let root : Symbol :=
    { number := 0, name := "", tag := "", path := TagPath.empty, kind := t.root.kind,
      span := t.root.span, parent := none, children := lists.getD 0 [] }
  let symbols := (found.zipIdx 1).map fun (o, n) =>
    let node := (t.node? o.node).getD t.root
    { number := n, name := o.name, tag := tagOf o.name,
      path := ⟨tagsTo parents tags parents.size n⟩, kind := node.kind, span := node.span,
      parent := parents.getD n none, children := lists.getD n [] : Symbol }
  let index := (symbols.filter (·.path.isAddressable)).map fun s => (s.path.toText, s.number)
  { symbols := (root :: symbols).toArray, index := index.reverse, text }

/-! ### Reading the tree -/

/-- The number of symbols, without the root. -/
def size (t : SymbolTree) : Nat := t.symbols.size - 1

/-- The symbol of a number. -/
def get? (t : SymbolTree) (n : Nat) : Option Symbol := t.symbols[n]?

/-- The children of the symbol of a number. -/
def children (t : SymbolTree) (n : Nat) : List Nat :=
  match t.get? n with
  | some s => s.children
  | none => []

/-- The parent of the symbol of a number. -/
def parent? (t : SymbolTree) (n : Nat) : Option Nat := (t.get? n).bind (·.parent)

/-- The tag of the symbol of a number. -/
def tag (t : SymbolTree) (n : Nat) : String :=
  match t.get? n with
  | some s => s.tag
  | none => ""

/-- The name of the symbol of a number. -/
def name (t : SymbolTree) (n : Nat) : String :=
  match t.get? n with
  | some s => s.name
  | none => ""

/-- The path of the symbol of a number. -/
def pathOf (t : SymbolTree) (n : Nat) : TagPath :=
  match t.get? n with
  | some s => s.path
  | none => TagPath.empty

/-- The symbols above a symbol, innermost first and without the root, at most
    `fuel` of them. -/
def climb (t : SymbolTree) : Nat → Nat → List Nat
  | 0, _ => []
  | fuel + 1, n =>
    match t.parent? n with
    | none => []
    | some p => if (t.parent? p).isNone then [] else p :: t.climb fuel p

/-- The symbols around a symbol, outermost first and without the root. -/
def ancestors (t : SymbolTree) (n : Nat) : List Nat := (t.climb t.symbols.size n).reverse

/-- The path of a symbol by the tags of the symbols around it. -/
def path (t : SymbolTree) (n : Nat) : TagPath :=
  ⟨(t.ancestors n).map t.tag ++ if (t.parent? n).isNone then [] else [t.tag n]⟩

/-- The names of the symbols around a symbol and its own. -/
def display (t : SymbolTree) (n : Nat) : String :=
  " > ".intercalate ((t.ancestors n).map t.name ++ [t.name n])

/-- Takes symbols off a stack and puts their children on it, as long as there are
    any, but at most `fuel` times. -/
def unstack (t : SymbolTree) : Nat → List Nat → List Nat
  | 0, _ => []
  | _ + 1, [] => []
  | fuel + 1, n :: stack => n :: t.unstack fuel (t.children n ++ stack)

/-- The symbols, each before its children and those before its next sibling. -/
def depthFirst (t : SymbolTree) : List Nat := t.unstack t.symbols.size (t.children 0)

/-- Takes symbols from the front of a queue and puts their children at its end, as
    long as there are any, but at most `fuel` times. -/
def unqueue (t : SymbolTree) : Nat → List Nat → List Nat
  | 0, _ => []
  | _ + 1, [] => []
  | fuel + 1, n :: queue => n :: t.unqueue fuel (queue ++ t.children n)

/-- The symbols, level by level. -/
def breadthFirst (t : SymbolTree) : List Nat := t.unqueue t.symbols.size (t.children 0)

/-- The symbol of a path, by the index. -/
def at? (t : SymbolTree) (p : TagPath) : Option Nat := t.index.lookup p.toText

/-- Goes down from a symbol, at each step to the last child that has the tag. -/
def descendFrom? (t : SymbolTree) (n : Nat) : List String → Option Nat
  | [] => some n
  | tag :: tags =>
    match (t.children n).reverse.find? fun c => t.tag c == tag with
    | none => none
    | some c => t.descendFrom? c tags

/-- The symbol of a path, by going down from the root. -/
def descend? (t : SymbolTree) (p : TagPath) : Option Nat :=
  if p.isAddressable then t.descendFrom? 0 p.tags else none

/-! ### The code of a symbol -/

/-- The text of a symbol, as it stands in the file. -/
def textOf (t : SymbolTree) (n : Nat) : List Char :=
  match t.get? n with
  | some s => (Text.slice? s.span.start s.span.stop t.text.toList).getD []
  | none => []

/-- The text of a symbol, moved to the left by the column at which it starts. The
    column counts bytes, and as many characters are taken off each line. -/
def contentOf (t : SymbolTree) (n : Nat) : List Char :=
  match t.get? n with
  | some s => Text.dropColumns s.span.first.column (t.textOf n)
  | none => []

end SymbolTree

end SymbolPaths
