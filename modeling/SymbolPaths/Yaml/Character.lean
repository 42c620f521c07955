/-!
# Characters of YAML texts

Which characters separate words and lines, which may stand in a text at all,
and which are written as they are. The line ends of other systems count as line
feeds; the line and the paragraph separator end lines as well, but are kept.
-/

namespace SymbolPaths.Yaml

/-- Spaces and tabs. -/
def isBlank (c : Char) : Bool := c == ' ' || c == '\t'

/-- The ends of lines. -/
def isBreak (c : Char) : Bool := c == '\n' || c == '\u2028' || c == '\u2029'

/-- What stands between words. -/
def isGap (c : Char) : Bool := isBlank c || isBreak c

/-- Whether the characters of a word end here. -/
def endsWord : List Char → Bool
  | [] => true
  | c :: _ => isGap c

/-- The mark that may stand at the start of a text to tell its encoding. -/
def orderMark : Char := '\uFEFF'

/-- Whether a character may stand in a text. -/
def isReadable (c : Char) : Bool :=
  let n := c.toNat
  n == 9 || n == 10 || n == 13 || (0x20 ≤ n && n ≤ 0x7E) || n == 0x85 ||
    (0xA0 ≤ n && n ≤ 0xD7FF) || (0xE000 ≤ n && n ≤ 0xFFFD) || 0x10000 ≤ n

/-- Whether a character is written as it is. -/
def isPrintable (c : Char) : Bool :=
  let n := c.toNat
  n == 10 || (0x20 ≤ n && n ≤ 0x7E) || (0xA0 ≤ n && n ≤ 0xD7FF) ||
    (0xE000 ≤ n && n ≤ 0xFFFD && c != orderMark) || 0x10000 ≤ n

/-- Whether a character may stand in the name of an anchor. -/
def isWordChar (c : Char) : Bool := c.isAlphanum || c == '_' || c == '-'

/-- The text in which every line that another system ended ends with a line
    feed. -/
def normalize : List Char → List Char
  | [] => []
  | c :: cs =>
    if c = '\r' then
      match cs with
      | [] => ['\n']
      | d :: ds => if d = '\n' then '\n' :: normalize ds else '\n' :: normalize (d :: ds)
    else if c = '\u0085' then '\n' :: normalize cs
    else c :: normalize cs

theorem normalize_of_forall {cs : List Char} (h : ∀ c ∈ cs, c ≠ '\r' ∧ c ≠ '\u0085') :
    normalize cs = cs := by
  induction cs with
  | nil => rfl
  | cons c cs ih =>
    have hc := h c List.mem_cons_self
    have ht := ih fun d hd => h d (List.mem_cons_of_mem c hd)
    cases cs <;> simp_all [normalize]

end SymbolPaths.Yaml
