import SymbolPaths.Text.Blank
import SymbolPaths.Text.Lines

/-!
# Tag paths

A symbol is addressed by the tags of the symbols around it, outermost first,
and its own: `Outer>inner`. A tag is a name without the characters that would
mean something else in a path or in a link.

* `toText_parse`: a text read as a path is written back as it was;
* `parse_toText`: a path whose tags are free of the delimiter is read back,
  unless it is the one that is written like the empty path.
-/

namespace SymbolPaths

/-- Whether a character of a name stays in its tag. -/
def isTagChar (c : Char) : Bool := !Text.isBlank c && !"<>#()".toList.contains c

/-- The tag of a name. -/
def tagOf (name : String) : String := String.ofList (name.toList.filter isTagChar)

/-- The tags from the outermost symbol to the one addressed. -/
structure TagPath where
  tags : List String
  deriving DecidableEq, Repr, Inhabited

namespace TagPath

/-- The delimiter between the tags of a path. -/
def delimiter : Char := '>'

/-- The path with no tags. -/
def empty : TagPath := ⟨[]⟩

/-- Reads a path. Only the empty text is the empty path; any other text has one
    tag more than it has delimiters. -/
def parse (s : String) : TagPath :=
  if s.toList = [] then empty
  else ⟨(Text.pieces delimiter s.toList).map String.ofList⟩

/-- Writes a path: its tags with the delimiter between them. -/
def toText (p : TagPath) : String :=
  String.ofList (Text.join delimiter (p.tags.map String.toList))

/-- The path one step up; a path of at most one tag has none. -/
def parent? (p : TagPath) : Option TagPath :=
  if p.tags.length ≤ 1 then none else some ⟨p.tags.dropLast⟩

/-- The path one step down, to `tag`. -/
def child (p : TagPath) (tag : String) : TagPath := ⟨p.tags ++ [tag]⟩

/-- The tag of the symbol addressed. -/
def last? (p : TagPath) : Option String := p.tags.getLast?

/-- Whether the path can be looked up: it has tags, and none of them is empty. -/
def isAddressable (p : TagPath) : Bool := p.tags ≠ [] && p.tags.all (· ≠ "")

theorem toText_parse (s : String) : (parse s).toText = s := by
  unfold parse
  split
  · next h => simp [empty, toText, Text.join, ← String.toList_inj, h]
  · simp [toText, Function.comp_def, Text.join_pieces]

theorem parse_toText {p : TagPath} (h : ∀ t ∈ p.tags, delimiter ∉ t.toList)
    (hne : p ≠ ⟨[""]⟩) : parse p.toText = p := by
  obtain ⟨tags⟩ := p
  cases tags with
  | nil => simp [parse, toText, Text.join, empty]
  | cons t ts =>
    have hjoin : Text.join delimiter ((t :: ts).map String.toList) ≠ [] := by
      cases ts with
      | nil =>
        intro ht
        exact hne (by simp_all [Text.join])
      | cons u us => simp [Text.join]
    simp only [parse, toText, String.toList_ofList, if_neg hjoin]
    rw [Text.pieces_join (by simp) (by simpa using h)]
    simp [Function.comp_def]

end TagPath

end SymbolPaths
