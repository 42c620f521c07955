import SymbolPaths.Proofs.Symbol.Content

/-!
# Margins

A symbol that starts behind some blanks on its line has the same blanks before the other lines of
its text, if these are indented at least as far. They are its margin: its code is its text
without them, and from the code and the margin the text can be told.

* `Text.indent`: a text with a margin before each line but the first;
* `Text.indent_dropColumns_eq_iff`: when a margin that was taken off can be put back;
* `SymbolTree.indent_contentOf`: the same for the code of a symbol.

Taking columns off and putting a margin back are both done line by line. That lines can be told
apart afterwards needs that no line feed comes or goes, which holds where lines end with a line
feed only; then the text comes back just if each line but the first began with the margin.
-/

namespace SymbolPaths

namespace Text

variable {cs : List Char} {line : List Char} {ls : List (List Char)}

/-- A text with a margin after every line feed. -/
def indent (margin cs : List Char) : List Char :=
  cs.flatMap fun c => if c = '\n' then '\n' :: margin else [c]

/-- Where lines end with a line feed only, taking columns off keeps the lines apart. -/
theorem pieces_dropColumns (columns : Nat) (hreturn : '\r' ∉ cs)
    (h : pieces '\n' cs = line :: ls) :
    pieces '\n' (dropColumns columns cs) = line :: ls.map (List.drop columns) := by
  have hkeep : (pieces '\n' cs).map dropReturn = pieces '\n' cs := by
    refine (List.map_congr_left fun l hl => ?_).trans (List.map_id _)
    rw [dropReturn, if_neg, id]
    exact fun hlast => hreturn (mem_of_mem_pieces hl (List.mem_of_getLast? hlast))
  rw [dropColumns]
  split
  · next hzero =>
    rw [h, hzero]
    exact congrArg (line :: ·) (List.map_id'' (fun _ => List.drop_zero) ls).symm
  · rw [hkeep, h]
    refine pieces_join (List.cons_ne_nil line _) fun l hl => ?_
    rcases List.mem_cons.1 hl with rfl | hl
    · exact notMem_of_mem_pieces (h ▸ List.mem_cons_self)
    · obtain ⟨k, hk, rfl⟩ := List.mem_map.1 hl
      exact fun hmem => notMem_of_mem_pieces (h ▸ List.mem_cons_of_mem line hk)
        (List.mem_of_mem_drop hmem)

theorem indent_of_notMem (margin : List Char) (h : '\n' ∉ line) : indent margin line = line := by
  induction line with
  | nil => rfl
  | cons c line ih =>
    rw [List.mem_cons, not_or] at h
    rw [indent, List.flatMap_cons, if_neg (Ne.symm h.1)]
    exact congrArg (c :: ·) (ih h.2)

/-- The margin comes before each line but the first. -/
theorem indent_join (margin : List Char) (h : ∀ l ∈ line :: ls, '\n' ∉ l) :
    indent margin (join '\n' (line :: ls)) = join '\n' (line :: ls.map (margin ++ ·)) := by
  induction ls generalizing line with
  | nil => exact indent_of_notMem margin (h line List.mem_cons_self)
  | cons next ls ih =>
    have hline := indent_of_notMem margin (h line List.mem_cons_self)
    have hnext := ih fun l hl => h l (List.mem_cons_of_mem line hl)
    have hmargin : margin ++ join '\n' (next :: ls.map (margin ++ ·)) =
        join '\n' ((margin ++ next) :: ls.map (margin ++ ·)) := by
      cases ls <;> simp [join]
    rw [indent] at hline hnext
    rw [join, indent, List.flatMap_append, List.flatMap_cons, hline, hnext, List.map_cons, join,
      ← hmargin]
    rfl

theorem append_drop_eq_self_iff (margin line : List Char) :
    margin ++ line.drop margin.length = line ↔ margin <+: line := by
  constructor
  · exact fun h => ⟨_, h⟩
  · rintro ⟨rest, rfl⟩
    rw [List.drop_left]

/-- A text from which as many columns were taken off as a margin has can be told from what is
    left, exactly if all its lines but the first begin with the margin. -/
theorem indent_dropColumns_eq_iff {margin : List Char} (hmargin : '\n' ∉ margin)
    (hreturn : '\r' ∉ cs) :
    (pieces '\n' (dropColumns margin.length cs)).length = (pieces '\n' cs).length ∧
      (indent margin (dropColumns margin.length cs) = cs ↔
        ∀ l ∈ (pieces '\n' cs).tail, margin <+: l) := by
  cases h : pieces '\n' cs with
  | nil => exact absurd h (pieces_ne_nil '\n' cs)
  | cons line ls =>
    have hpieces := pieces_dropColumns margin.length hreturn h
    have hlines : ∀ l ∈ line :: ls.map (List.drop margin.length), '\n' ∉ l := fun l hl =>
      notMem_of_mem_pieces (hpieces ▸ hl)
    let restore (l : List Char) : List Char := margin ++ l.drop margin.length
    -- Dropping and putting back works line by line, on all lines but the first.
    have hindent : indent margin (dropColumns margin.length cs) =
        join '\n' (line :: ls.map restore) := by
      rw [← join_pieces '\n' (dropColumns margin.length cs), hpieces, indent_join margin hlines,
        List.map_map]
      rfl
    have hrestored : ∀ l ∈ line :: ls.map restore, '\n' ∉ l := by
      intro l hl
      rcases List.mem_cons.1 hl with rfl | hl
      · exact hlines l List.mem_cons_self
      · obtain ⟨k, hk, rfl⟩ := List.mem_map.1 hl
        rw [List.mem_append, not_or]
        exact ⟨hmargin, hlines _ (List.mem_cons_of_mem line (List.mem_map_of_mem hk))⟩
    have hsame : ls.map restore = ls ↔ ∀ l ∈ ls, restore l = l := by
      conv_lhs => rw [← List.map_id ls, List.map_map]
      exact List.map_eq_map_iff
    refine ⟨by simp [hpieces], ?_⟩
    rw [hindent, List.tail_cons]
    -- Joined lines agree when the lines do, as none of them holds a line feed.
    calc join '\n' (line :: ls.map restore) = cs
        ↔ line :: ls.map restore = line :: ls := by
          rw [← h]
          constructor
          · intro heq
            rw [← heq, pieces_join (List.cons_ne_nil line _) hrestored]
          · intro heq
            rw [heq, join_pieces]
      _ ↔ ∀ l ∈ ls, restore l = l := by
          rw [List.cons_eq_cons, and_iff_right rfl, hsame]
      _ ↔ ∀ l ∈ ls, margin <+: l := by
          simp only [restore, append_drop_eq_self_iff]

end Text

namespace SymbolTree

/-- The text of a symbol can be told from its code and the blanks of its margin, as many as its
    start column says, exactly if all lines of the text but the first begin with them. The code
    has as many lines as the text, and at column 0 it is the text. -/
theorem indent_contentOf (t : SymbolTree) (n : Nat) :
    (∀ margin : List Char, margin.length = t.columnOf n → (∀ c ∈ margin, c = ' ' ∨ c = '\t') →
      '\r' ∉ t.textOf n →
      (Text.pieces '\n' (t.contentOf n)).length = (Text.pieces '\n' (t.textOf n)).length ∧
        (Text.indent margin (t.contentOf n) = t.textOf n ↔
          ∀ line ∈ (Text.pieces '\n' (t.textOf n)).tail, margin <+: line)) ∧
      (t.columnOf n = 0 → t.contentOf n = t.textOf n) := by
  constructor
  · intro margin hcolumn hblank hreturn
    have hfeed : '\n' ∉ margin := by
      intro hmem
      rcases hblank '\n' hmem with h | h <;> cases h
    rw [contentOf_eq, ← hcolumn]
    exact Text.indent_dropColumns_eq_iff hfeed hreturn
  · intro hcolumn
    rw [contentOf_eq, hcolumn, Text.dropColumns, if_pos rfl]

/-- A method that is the first thing on its line, with a line below it. -/
def methodText : String := "class A:\n  def f(self):\n    return 1\n"

/-- The syntax tree of that text, without its leaves. -/
def methodTree : SourceTree :=
  let node (kind : String) (start stop : Nat) : SourceNode :=
    { kind, field := "", span := Span.of (Text.encode methodText) start stop }
  { root := node "module" 0 37
    inner := Forest.tree (node "class_definition" 0 36) [
      Forest.tree (node "function_definition" 11 36) []] }

/-- The margin of the method is that of its line, two spaces. -/
theorem indent_contentOf_method :
    let T := build methodTree [⟨"A", 1⟩, ⟨"f", 2⟩] methodText
    T.columnOf 2 = 2 ∧ '\r' ∉ T.textOf 2 ∧
      T.contentOf 2 = "def f(self):\n  return 1".toList ∧
      Text.indent [' ', ' '] (T.contentOf 2) = T.textOf 2 := by
  intro T
  have hcolumn : T.columnOf 2 = 2 := by decide +kernel
  have hreturn : '\r' ∉ T.textOf 2 := by decide +kernel
  have hlines : ∀ line ∈ (Text.pieces '\n' (T.textOf 2)).tail, [' ', ' '] <+: line := by
    decide +kernel
  have hindent := (indent_contentOf T 2).1 [' ', ' '] hcolumn.symm (by simp) hreturn
  exact ⟨hcolumn, hreturn, by decide +kernel, hindent.2.2 hlines⟩

end SymbolTree

end SymbolPaths
