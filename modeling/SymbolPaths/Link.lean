import SymbolPaths.Language.Registry
import SymbolPaths.TagPath

/-!
# Code links

A link names a file, and may name a symbol in it and a text to show instead.
It is written in one of three forms:

* wiki: `[[file#path|caption]]`, with path and caption left out or not;
* markdown: `[caption](file#path)`, with caption and path left out or not;
* inner: what stands between the brackets of a wiki link.

The first two are read at the end of a text, where they may be followed by the
beginning of a query, which is free of blanks. Of all the ends of the text
that are such a link the longest counts, and a wiki link goes before a markdown
link. The inner form is read where it first occurs.

* `CodeLink.parse?` and `CodeLink.parseInner?` read links;
* `CodeLink.withPath` writes the link to another symbol of the file.
-/

namespace SymbolPaths

/-- The forms of links. -/
inductive LinkKind where
  | wiki
  | markdown
  | inner
  deriving DecidableEq, Repr, Inhabited

/-- A link. -/
structure CodeLink where
  kind : LinkKind
  /-- The text of the whole link. -/
  text : String
  file : String
  path : Option TagPath
  caption : Option String
  /-- What was typed after the link; never empty. -/
  query : Option String
  deriving DecidableEq, Repr, Inhabited

/-- The parts that links have in common. -/
structure LinkParts where
  file : List Char
  path : Option (List Char)
  caption : Option (List Char)
  deriving DecidableEq, Repr, Inhabited

namespace LinkParts

/-- The characters of the parts of a wiki link. -/
def isWikiChar (c : Char) : Bool := c != '#' && c != '|' && c != ']'

/-- The characters of the file and the path in a markdown link. -/
def isTargetChar (c : Char) : Bool := c != '#' && c != '|' && c != ')'

/-- The characters of the caption in a markdown link. -/
def isCaptionChar (c : Char) : Bool := c != ']'

/-- Reads a mark and as many characters after it as there are, if there are any.
    Otherwise nothing is read. -/
def readMarked (mark : Char) (ok : Char → Bool) (cs : List Char) :
    Option (List Char) × List Char :=
  match cs with
  | [] => (none, [])
  | c :: rest =>
    if c = mark ∧ rest.takeWhile ok ≠ [] then (some (rest.takeWhile ok), rest.dropWhile ok)
    else (none, c :: rest)

/-- Reads the parts of a wiki link and tells what comes after them. -/
def readWiki? (cs : List Char) : Option (LinkParts × List Char) :=
  let file := cs.takeWhile isWikiChar
  if file = [] then none
  else
    let (path, rest) := readMarked '#' isWikiChar (cs.dropWhile isWikiChar)
    let (caption, rest) := readMarked '|' isWikiChar rest
    some ({ file, path, caption }, rest)

/-- Reads the file and the path of a markdown link. -/
def readTarget? (caption : Option (List Char)) (cs : List Char) : Option (LinkParts × List Char) :=
  let file := cs.takeWhile isTargetChar
  if file = [] then none
  else
    let (path, rest) := readMarked '#' isTargetChar (cs.dropWhile isTargetChar)
    some ({ file, path, caption }, rest)

/-- Whether a text is free of blanks. -/
def isQuery (cs : List Char) : Bool := cs.all fun c => !Text.isBlank c

/-- The parts and the query of a text that is a wiki link. -/
def wiki? : List Char → Option (LinkParts × List Char)
  | '[' :: '[' :: cs =>
    match readWiki? cs with
    | some (parts, ']' :: ']' :: query) => if isQuery query then some (parts, query) else none
    | _ => none
  | _ => none

/-- The parts and the query of a text that is a markdown link. -/
def markdown? : List Char → Option (LinkParts × List Char)
  | '[' :: cs =>
    let caption := cs.takeWhile isCaptionChar
    match cs.dropWhile isCaptionChar with
    | ']' :: '(' :: cs =>
      match readTarget? (if caption = [] then none else some caption) cs with
      | some (parts, ')' :: query) => if isQuery query then some (parts, query) else none
      | _ => none
    | _ => none
  | _ => none

/-- The longest end of a text of which something can be made, with that. -/
def longestEnd? {β : Type} (make : List Char → Option β) : List Char → Option (List Char × β)
  | [] => (make []).map ([], ·)
  | c :: cs =>
    match make (c :: cs) with
    | some b => some (c :: cs, b)
    | none => longestEnd? make cs

/-- The text of the parts of an inner link. -/
def innerText (p : LinkParts) : List Char :=
  p.file ++ (match p.path with | none => [] | some path => '#' :: path) ++
    (match p.caption with | none => [] | some caption => '|' :: caption)

/-- The link of some parts. -/
def toLink (p : LinkParts) (kind : LinkKind) (text query : List Char) : CodeLink :=
  { kind
    text := String.ofList text
    file := String.ofList p.file
    path := p.path.map fun path => TagPath.parse (String.ofList path)
    caption := p.caption.map String.ofList
    query := if query = [] then none else some (String.ofList query) }

end LinkParts

namespace CodeLink

open LinkParts

/-- The link at the end of a text. -/
def parse? (text : String) : Option CodeLink :=
  match longestEnd? wiki? text.toList with
  | some (end', parts, query) => some (parts.toLink .wiki end' query)
  | none =>
    match longestEnd? markdown? text.toList with
    | some (end', parts, query) => some (parts.toLink .markdown end' query)
    | none => none

/-- The first inner link in a text. -/
def parseInner? (text : String) : Option CodeLink :=
  match readWiki? (text.toList.dropWhile fun c => !isWikiChar c) with
  | some (parts, _) => some (parts.toLink .inner parts.innerText [])
  | none => none

/-- The language of the file. -/
def language? (l : CodeLink) : Option Language := Language.ofPath? l.file

/-- The text of a link to the symbol of a path in the same file. Links that are
    read at the end of a text are written with a blank after them, which ends
    the query; the inner form is written without caption. -/
def withPath (l : CodeLink) (path : TagPath) : String :=
  match l.kind with
  | .wiki =>
    "[[" ++ l.file ++ "#" ++ path.toText ++
      (match l.caption with | none => "" | some caption => "|" ++ caption) ++ "]] "
  | .markdown => "[" ++ l.caption.getD "" ++ "](" ++ l.file ++ "#" ++ path.toText ++ ") "
  | .inner => l.file ++ "#" ++ path.toText

end CodeLink

end SymbolPaths
