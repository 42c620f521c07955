import SymbolPaths.Yaml.Cursor
import SymbolPaths.Yaml.Scalar.Folding

/-!
# Plain scalars

A scalar without quotes goes on to the next comment, to a colon that ends a
word, and in a flow collection to a mark of the collection. It may go on in
further lines, which have to be indented to a column `floor` unless they stand
in a flow collection.
-/

namespace SymbolPaths.Yaml

/-- The marks that separate and enclose the parts of flow collections. -/
def isFlowMark (c : Char) : Bool := c == ',' || c == '[' || c == ']' || c == '\x7b' || c == '\x7d'

/-- The characters that a plain scalar does not start with, except that some of
    them may be part of its first word. -/
def isIndicator (c : Char) : Bool := "-?:,[]\x7b\x7d#&*!|>'\"%@\x60".toList.contains c

/-- Whether a plain scalar starts here. -/
def startsPlain (flow : Bool) : List Char → Bool
  | [] => false
  | c :: cs =>
    !isGap c && (!isIndicator c || (c == '-' && !endsWord cs) ||
      (!flow && (c == '?' || c == ':') && !endsWord cs))

/-- Whether a plain scalar ends before these characters, which are no gap. -/
def endsPlain (flow : Bool) : List Char → Bool
  | [] => true
  | c :: cs => (c == ':' && endsWord cs) || (flow && isFlowMark c)

/-- Whether a colon stands where a flow collection does not allow it. -/
def isStrayColon : List Char → Bool
  | c :: d :: _ => c == ':' && (isFlowMark d || d == '?')
  | _ => false

/-- Reads the rest of a plain scalar; `gap` is the gap just before. The gap at its
    end does not belong to it, but is read as well. -/
def readPlain (flow : Bool) (floor : Nat) (gap : List Char) (m : Mark) :
    List Char → Option (List Char × Spot)
  | [] => some ([], ⟨m, []⟩)
  | c :: cs =>
    if isGap c then
      if c = '\t' ∧ m.column < floor ∧ gap.any isBreak then none
      else readPlain flow floor (gap ++ [c]) (m.after c) cs
    else if gap.any isBreak && (endsDocument m (c :: cs) || (!flow && m.column < floor)) then
      some ([], ⟨m, c :: cs⟩)
    else if !gap.isEmpty && c == '#' then some ([], ⟨m, c :: cs⟩)
    else if flow && isStrayColon (c :: cs) then none
    else if endsPlain flow (c :: cs) then some ([], ⟨m, c :: cs⟩)
    else
      (readPlain flow floor [] (m.after c) cs).map fun (t, s) => (foldGap false gap ++ c :: t, s)

end SymbolPaths.Yaml
