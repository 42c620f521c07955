/-!
# Byte offsets

Positions in a source file are counted in bytes of its UTF-8 form. A range of
bytes is a text only if both ends lie between characters.

* `slice_zero`: the slice from the start up to the size is the whole text.
-/

namespace SymbolPaths

/-- The contents of a file. -/
abbrev Bytes := List UInt8

namespace Text

/-- The number of bytes of a text. -/
def byteSize : List Char → Nat
  | [] => 0
  | c :: cs => c.utf8Size + byteSize cs

/-- The bytes of a text. -/
def encode (s : String) : Bytes := s.toUTF8.data.toList

/-- The text that the bytes encode, if they encode one. -/
def decode? (bytes : Bytes) : Option String := String.fromUTF8? ⟨bytes.toArray⟩

/-- The text after its first `n` bytes, if they end between characters. -/
def dropBytes? : Nat → List Char → Option (List Char)
  | 0, cs => some cs
  | _ + 1, [] => none
  | n + 1, c :: cs => if c.utf8Size ≤ n + 1 then dropBytes? (n + 1 - c.utf8Size) cs else none

/-- The first `n` bytes of the text, if they end between characters. -/
def takeBytes? : Nat → List Char → Option (List Char)
  | 0, _ => some []
  | _ + 1, [] => none
  | n + 1, c :: cs =>
    if c.utf8Size ≤ n + 1 then (takeBytes? (n + 1 - c.utf8Size) cs).map (c :: ·) else none

/-- The text between two byte offsets, if both are between characters and in
    order. -/
def slice? (start stop : Nat) (cs : List Char) : Option (List Char) :=
  if start ≤ stop then (dropBytes? start cs).bind (takeBytes? (stop - start)) else none

/-- A place in a file: the line and the byte in it, both from zero. -/
structure Position where
  row : Nat
  column : Nat
  deriving DecidableEq, Repr, Inhabited

/-- The position of a byte offset. -/
def positionAt (bytes : Bytes) (offset : Nat) : Position :=
  let before := bytes.take offset
  { row := before.count 10, column := (before.reverse.takeWhile (· ≠ 10)).length }

theorem takeBytes?_byteSize (cs : List Char) : takeBytes? (byteSize cs) cs = some cs := by
  induction cs with
  | nil => rfl
  | cons c cs ih =>
    have hc := c.utf8Size_pos
    have hb : byteSize (c :: cs) = c.utf8Size + byteSize cs := by simp [byteSize]
    obtain ⟨n, hn⟩ : ∃ n, byteSize (c :: cs) = n + 1 := ⟨byteSize (c :: cs) - 1, by omega⟩
    rw [hn, takeBytes?, if_pos (by omega), show n + 1 - c.utf8Size = byteSize cs by omega, ih]
    rfl

theorem slice_zero (cs : List Char) : slice? 0 (byteSize cs) cs = some cs := by
  rw [slice?, if_pos (Nat.zero_le _), dropBytes?]
  exact takeBytes?_byteSize cs

end Text

end SymbolPaths
