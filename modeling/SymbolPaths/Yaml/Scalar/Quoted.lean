import SymbolPaths.Number.Digit
import SymbolPaths.Yaml.Cursor
import SymbolPaths.Yaml.Scalar.Folding

/-!
# Quoted scalars

In single quotes a quote is written twice and everything else stands for
itself. In double quotes a backslash starts an escape; at the end of a line it
takes back the line end. Both may go on in further lines, but not past the end
of the document.
-/

namespace SymbolPaths.Yaml

/-- Reads from behind an opening single quote to behind the closing one; `gap` is
    the gap just before. -/
def readSingleQuoted (gap : List Char) (m : Mark) : List Char → Option (List Char × Spot)
  | [] => none
  | c :: cs =>
    if isGap c then readSingleQuoted (gap ++ [c]) (m.after c) cs
    else if endsDocument m (c :: cs) then none
    else if c = '\'' then
      match cs with
      | [] => some (foldGap false gap, ⟨m.skip 1, []⟩)
      | d :: ds =>
        if d = '\'' then
          (readSingleQuoted [] (m.skip 2) ds).map fun (t, s) =>
            (foldGap false gap ++ '\'' :: t, s)
        else some (foldGap false gap, ⟨m.skip 1, d :: ds⟩)
    else
      (readSingleQuoted [] (m.after c) cs).map fun (t, s) => (foldGap false gap ++ c :: t, s)

/-- The characters that are escaped by a letter or by themselves. -/
def shortEscapes : List (Char × Char) := [
  ('0', '\x00'), ('a', '\x07'), ('b', '\x08'), ('t', '\t'), ('\t', '\t'), ('n', '\n'),
  ('v', '\x0B'), ('f', '\x0C'), ('r', '\r'), ('e', '\x1B'), (' ', ' '), ('"', '"'), ('/', '/'),
  ('\\', '\\'), ('N', '\u0085'), ('_', '\u00A0'), ('L', '\u2028'), ('P', '\u2029')]

/-- The character of a number that is one. -/
def charOf? (n : Nat) : Option Char := if n.isValidChar then some (Char.ofNat n) else none

/-- Reads an escape from behind its backslash: tells the character that it stands
    for, and how many characters it takes. -/
def readEscape? : List Char → Option (Char × Nat)
  | [] => none
  | c :: cs =>
    let digits (n : Nat) : Option (Char × Nat) :=
      if cs.length < n then none
      else ((Number.ofDigits? 16 (cs.take n)).bind charOf?).map (·, n + 1)
    if c = 'x' then digits 2
    else if c = 'u' then digits 4
    else if c = 'U' then digits 8
    else (shortEscapes.lookup c).map (·, 1)

/-- Reads from behind an opening double quote to behind the closing one. The first
    `skip` characters belong to an escape that was read already; `gap` is the gap
    just before, which started with an escaped line end if `escaped`. -/
def readDoubleQuoted (skip : Nat) (escaped : Bool) (gap : List Char) (m : Mark) :
    List Char → Option (List Char × Spot)
  | [] => none
  | c :: cs =>
    match skip with
    | skip + 1 => readDoubleQuoted skip false [] (m.after c) cs
    | 0 =>
      if isGap c then readDoubleQuoted 0 escaped (gap ++ [c]) (m.after c) cs
      else if endsDocument m (c :: cs) then none
      else if c = '"' then some (foldGap escaped gap, ⟨m.skip 1, cs⟩)
      else if c = '\\' then
        match cs with
        | [] => none
        | d :: ds =>
          if isBreak d then
            (readDoubleQuoted 0 true [] ((m.skip 1).after d) ds).map fun (t, s) =>
              (foldGap escaped gap ++ t, s)
          else
            match readEscape? (d :: ds) with
            | none => none
            | some (e, n) =>
              (readDoubleQuoted n false [] (m.skip 1) (d :: ds)).map fun (t, s) =>
                (foldGap escaped gap ++ e :: t, s)
      else
        (readDoubleQuoted 0 false [] (m.after c) cs).map fun (t, s) =>
          (foldGap escaped gap ++ c :: t, s)

end SymbolPaths.Yaml
