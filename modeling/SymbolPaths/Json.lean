/-!
# JSON documents

Documents made of numbers, texts, lists and records whose fields keep their
order, and their text with one entry to a line, indented by two columns for
each level. Empty lists and records stay on their line.
-/

namespace SymbolPaths

/-- A document. -/
inductive JsonValue where
  | number (value : Nat)
  | text (value : String)
  | list (items : List JsonValue)
  | record (fields : List (String × JsonValue))
  deriving Repr, Inhabited

namespace JsonValue

/-- The digits of a character below 32. -/
def controlDigits (n : Nat) : List Char := [Nat.digitChar (n / 16), Nat.digitChar (n % 16)]

/-- The letters that stand for characters after a backslash. -/
def escapeLetters : List (Char × Char) := [
  ('"', '"'), ('\\', '\\'), ('\x08', 'b'), ('\x0C', 'f'), ('\n', 'n'), ('\r', 'r'), ('\t', 't')]

/-- A character in a text. -/
def escape (c : Char) : List Char :=
  match escapeLetters.lookup c with
  | some letter => ['\\', letter]
  | none =>
    if c.toNat < 32 then '\\' :: 'u' :: '0' :: '0' :: controlDigits c.toNat else [c]

/-- A text between its quotes. -/
def quote (s : String) : String :=
  "\"" ++ String.ofList (s.toList.flatMap escape) ++ "\""

/-- The start of a line of some level. -/
def newLine (level : Nat) : String := "\n" ++ String.ofList (List.replicate (2 * level) ' ')

mutual

/-- The text of a document that starts on a line of some level. -/
def pretty (level : Nat) : JsonValue → String
  | number n => toString n
  | text s => quote s
  | list [] => "[]"
  | list (item :: items) =>
    "[" ++ newLine (level + 1) ++ pretty (level + 1) item ++ prettyItems (level + 1) items ++
      newLine level ++ "]"
  | record [] => "\x7b\x7d"
  | record ((name, value) :: fields) =>
    "\x7b" ++ newLine (level + 1) ++ quote name ++ ": " ++ pretty (level + 1) value ++
      prettyFields (level + 1) fields ++ newLine level ++ "\x7d"

/-- The items after the first one. -/
def prettyItems (level : Nat) : List JsonValue → String
  | [] => ""
  | item :: items => "," ++ newLine level ++ pretty level item ++ prettyItems level items

/-- The fields after the first one. -/
def prettyFields (level : Nat) : List (String × JsonValue) → String
  | [] => ""
  | (name, value) :: fields =>
    "," ++ newLine level ++ quote name ++ ": " ++ pretty level value ++ prettyFields level fields

end

end JsonValue

end SymbolPaths
