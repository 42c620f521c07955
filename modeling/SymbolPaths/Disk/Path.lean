import SymbolPaths.Text.Lines

/-!
# File paths

A path is a text whose segments are separated by slashes. Empty segments and
those of a single dot stand for the directory that they are in, two dots for
the one above it.
-/

namespace SymbolPaths

namespace FilePath

/-- The texts between the slashes. -/
def segments (path : String) : List String :=
  (Text.pieces '/' path.toList).map String.ofList

/-- Whether a segment only repeats the directory that it is in. -/
def isHere (segment : String) : Bool := segment == "" || segment == "."

/-- Whether a path ends with a slash. -/
def endsWithSlash (path : String) : Bool := path.toList.getLast? == some '/'

/-- Whether a path starts at the top of the file system. -/
def isAbsolute (path : String) : Bool := path.toList.head? == some '/'

/-- A path without the slashes at its end, all but the one of the top. -/
def trimSlashes (path : String) : String :=
  match (path.toList.reverse.dropWhile (· = '/')).reverse with
  | [] => if isAbsolute path then "/" else ""
  | cs => String.ofList cs

/-- The last segment of a path that names something; there is none if it leads
    up. -/
def fileName? (path : String) : Option String :=
  match (segments path).reverse.dropWhile isHere with
  | [] => none
  | name :: _ => if name = ".." then none else some name

/-- The part of a file name from its last dot on. A dot at the start of the name
    does not count. -/
def extension? (path : String) : Option String := do
  let name ← fileName? path
  let (ext, stem) := name.toList.reverse.span (· ≠ '.')
  match stem with
  | [] => none
  | [_] => none
  | _ => some ("." ++ String.ofList ext.reverse)

/-- The path of `name` in a directory. -/
def join (dir name : String) : String :=
  if dir = "" then name
  else if dir.toList.getLast? = some '/' then dir ++ name
  else dir ++ "/" ++ name

/-- The path of the directory that a path leads into, as written but without what
    only repeats a directory at its end. It is the empty path if that directory is
    not written, and if there is none above the top. -/
def parent (path : String) : String :=
  let above := ((segments path).reverse.dropWhile isHere).tail
  match (above.dropWhile isHere).reverse with
  | [] =>
    if above.isEmpty then ""
    else if isAbsolute path then "/"
    else if (segments path).head? = some "." then "." else ""
  | segs => "/".intercalate segs

example : ["a/./b", "a//b/", "./b", "/b", "a/.", "b"].map parent =
    ["a", "a", ".", "/", "", ""] := by
  decide +kernel

end FilePath

end SymbolPaths
