import SymbolPaths.Http.Host

/-!
# Addresses on the web

Reads an address and writes it in its normal form: the scheme and the host in
small letters, no port where it is the usual one, no dots among the segments of
the path, and characters that do not belong there as percent signs with two
digits for every byte. An address without a scheme is none, and one of the web
needs a host.
-/

namespace SymbolPaths

/-- An address. -/
structure Url where
  scheme : List Char
  /-- The host with its port, if the address has a place for one. -/
  host : Option (List Char)
  path : List Char
  query : Option (List Char)
  fragment : Option (List Char)
  deriving DecidableEq, Repr, Inhabited

namespace Url

/-! ### Paths -/

/-- Whether a segment stands for the place that it is in. -/
def isDot (cs : List Char) : Bool := [".", "%2e"].contains (String.ofList (cs.map Char.toLower))

/-- Whether a segment leads up. -/
def isDots (cs : List Char) : Bool :=
  ["..", ".%2e", "%2e.", "%2e%2e"].contains (String.ofList (cs.map Char.toLower))

/-- The segments without those that only lead about; `done` holds the segments so
    far, the last one first. -/
def resolveDots (done : List (List Char)) : List (List Char) → List (List Char)
  | [] => done.reverse
  | [s] =>
    if isDots s then (done.tail.reverse ++ [[]])
    else if isDot s then (done.reverse ++ [[]])
    else (s :: done).reverse
  | s :: t :: rest =>
    if isDots s then resolveDots done.tail (t :: rest)
    else if isDot s then resolveDots done (t :: rest)
    else resolveDots (s :: done) (t :: rest)

/-- A path that starts at the top, in normal form. -/
def normalPath (cs : List Char) : List Char :=
  let segments := resolveDots [] (Text.pieces '/' (cs.drop 1))
  '/' :: Text.join '/' (segments.map (Http.Percent.escape Http.Percent.inPath))

/-! ### Whole addresses -/

/-- The part of a text before a mark, and the part after it if it is there. -/
def cut (mark : Char) (cs : List Char) : List Char × Option (List Char) :=
  match cs.dropWhile (· ≠ mark) with
  | [] => (cs, none)
  | _ :: after => (cs.takeWhile (· ≠ mark), some after)

/-- Whether a character is allowed in the name of a scheme, after its first. -/
def isSchemeChar (c : Char) : Bool := c.isAlphanum || c == '+' || c == '-' || c == '.'

/-- The schemes of the web, whose addresses name a host. -/
def webSchemes : List String := ["http", "https", "ws", "wss", "ftp"]

/-- Reads an address. -/
def parse? (text : String) : Option Url := do
  let isSpace (c : Char) : Bool := c.toNat ≤ 0x20
  let cs := ((text.toList.dropWhile isSpace).reverse.dropWhile isSpace).reverse
  let cs := cs.filter fun c => c != '\t' && c != '\n' && c != '\r'
  let (rest, fragment) := cut '#' cs
  let (beforeColon, afterColon) := cut ':' rest
  let afterColon ← afterColon
  let first ← beforeColon.head?
  if !first.isAlpha || !beforeColon.all isSchemeChar then none
  let schemeChars := beforeColon.map Char.toLower
  let scheme := String.ofList schemeChars
  let (body, query) := cut '?' afterColon
  let query := query.map (Http.Percent.escape Http.Percent.inQuery)
  let fragment := fragment.map (Http.Percent.escape Http.Percent.inFragment)
  if webSchemes.contains scheme then
    let body := body.map fun c => if c = '\\' then '/' else c
    let server := body.dropWhile (· = '/')
    let host ← Http.Host.ofAuthority? scheme true (server.takeWhile (· ≠ '/'))
    some { scheme := schemeChars, host, path := normalPath (server.dropWhile (· ≠ '/')), query,
           fragment }
  else
    match body with
    | '/' :: '/' :: server =>
      let name := server.takeWhile (· ≠ '/')
      let host ←
        if name.isEmpty || (scheme = "file" && name.map Char.toLower = "localhost".toList) then
          some []
        else Http.Host.ofAuthority? scheme (scheme == "file") name
      let path := server.dropWhile (· ≠ '/')
      some { scheme := schemeChars, host, query, fragment,
             path := if path.isEmpty then [] else normalPath path }
    | body =>
      let path := if scheme = "file" then normalPath ('/' :: body.dropWhile (· = '/')) else
        match body with
        | '/' :: _ => normalPath body
        | body => Http.Percent.escape Http.Percent.isControl body
      some { scheme := schemeChars, host := if scheme = "file" then some [] else none, path, query,
             fragment }

/-- What a server is asked for. -/
def target (u : Url) : String :=
  String.ofList (u.path ++ (match u.query with | none => [] | some q => '?' :: q))

/-- The address in normal form. -/
def text (u : Url) : String :=
  String.ofList (u.scheme ++ ':' ::
    (match u.host with | none => [] | some h => '/' :: '/' :: h)) ++ u.target ++
    String.ofList (match u.fragment with | none => [] | some f => '#' :: f)

/-- Whether the address can be asked for a file. -/
def isWeb (u : Url) : Bool := ["http", "https"].contains (String.ofList u.scheme)

end Url

end SymbolPaths
