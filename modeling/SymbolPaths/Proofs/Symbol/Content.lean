import SymbolPaths.Proofs.Query.Completion
import SymbolPaths.Proofs.Symbol.Links

/-!
# The code of a symbol

The code of a symbol is its text moved to the left: as many characters as its start column
says are taken off each line after the first, whatever they are. Where the symbol is the
first thing on its line, and the lines below are indented at least as far, these are blanks.
Where something stands before it on its line they need not be.

* `Text.ink_dropColumns`: what is left of the ink of a text;
* `Text.ink_dropColumns_eq_iff`: when all of it is left;
* `SymbolTree.ink_contentOf`: the same for the code of a symbol.

Ink is counted line by line, as that is how columns are taken off; a carriage return at the end of
a line is blank, so it makes no difference that it goes as well. Whether something is lost is
decided by the characters in the columns that are dropped, and by nothing else.
-/

namespace SymbolPaths

namespace Text

variable {cs : List Char} {line : List Char} {ls : List (List Char)}

/-- The characters of a text that are not blank. -/
def ink (cs : List Char) : List Char := cs.filter fun c => !isBlank c

theorem ink_append (cs ds : List Char) : ink (cs ++ ds) = ink cs ++ ink ds :=
  List.filter_append ..

/-- Only blank texts have no ink. -/
theorem ink_eq_nil_iff : ink cs = [] ↔ ∀ c ∈ cs, isBlank c := by
  simp [ink]

/-- Between lines there is no ink, so that of a text is that of its lines. -/
theorem ink_join {d : Char} (hd : isBlank d) (ls : List (List Char)) :
    ink (join d ls) = ls.flatMap ink := by
  fun_induction join d ls with
  | case1 => rfl
  | case2 line => simp
  | case3 line next ls ih =>
    have hmark : ink (d :: join d (next :: ls)) = ink (join d (next :: ls)) := by
      simp [ink, hd]
    rw [ink_append, hmark, ih]
    exact (List.flatMap_cons ..).symm

/-- A carriage return at the end of a line is no ink, wherever the line is cut. -/
theorem ink_drop_dropReturn (n : Nat) (line : List Char) :
    ink ((dropReturn line).drop n) = ink (line.drop n) := by
  rw [dropReturn]
  split
  · next hlast =>
    obtain ⟨front, rfl⟩ := List.getLast?_eq_some_iff.1 hlast
    have hreturn : ink (['\r'].drop (n - front.length)) = [] := by
      refine ink_eq_nil_iff.2 fun c hc => ?_
      rw [List.mem_singleton.1 (List.mem_of_mem_drop hc)]
      rfl
    rw [List.dropLast_concat, List.drop_append, ink_append, hreturn, List.append_nil]
  · rfl

/-- All is left of the first line, and of each other line what stands from the column on. -/
theorem ink_dropColumns (columns : Nat) (h : pieces '\n' cs = line :: ls) :
    ink (dropColumns columns cs) = ink line ++ ls.flatMap fun l => ink (l.drop columns) := by
  rw [dropColumns]
  split
  · next hzero =>
    conv_lhs => rw [← join_pieces '\n' cs, h, ink_join rfl, List.flatMap_cons]
    simp [hzero]
  · have hline : ink (dropReturn line) = ink line := ink_drop_dropReturn 0 line
    simp only [h, List.map_cons]
    rw [ink_join rfl, List.flatMap_cons, hline, List.map_map, List.flatMap_map]
    simp only [Function.comp_apply, ink_drop_dropReturn]

/-- Cutting a line loses no ink. -/
theorem ink_take_drop (n : Nat) (line : List Char) :
    ink line = ink (line.take n) ++ ink (line.drop n) := by
  rw [← ink_append, List.take_append_drop]

/-- Lines that are cut have nothing that they had not, and all of it if what is cut off is
    blank. -/
theorem ink_drop_lines (n : Nat) (ls : List (List Char)) :
    (ls.flatMap fun l => ink (l.drop n)).Sublist (ls.flatMap ink) ∧
      ((ls.flatMap fun l => ink (l.drop n)) = ls.flatMap ink ↔
        ∀ l ∈ ls, ∀ c ∈ l.take n, isBlank c) := by
  induction ls with
  | nil => simp
  | cons l ls ih =>
    obtain ⟨hsublist, hiff⟩ := ih
    have hl : (ink (l.drop n)).Sublist (ink l) := (List.drop_sublist n l).filter _
    rw [List.flatMap_cons, List.flatMap_cons, List.forall_mem_cons, ← hiff, ← ink_eq_nil_iff]
    refine ⟨hl.append hsublist, fun h => ?_, fun ⟨hcut, hrest⟩ => ?_⟩
    · -- Of two lists that are no longer than two others none can make up for the other.
      have hlength := congrArg List.length h
      have hle := hsublist.length_le
      rw [ink_take_drop n l] at hlength
      simp only [List.length_append] at hlength
      exact ⟨List.eq_nil_of_length_eq_zero (by omega), hsublist.eq_of_length (by omega)⟩
    · rw [ink_take_drop n l, hcut, hrest, List.nil_append]

/-- Columns that are dropped take ink with them exactly where a later line has some in these
    columns. Otherwise the ink is as it was. -/
theorem ink_dropColumns_eq_iff (columns : Nat) (cs : List Char) :
    (ink (dropColumns columns cs)).Sublist (ink cs) ∧
      (ink (dropColumns columns cs) = ink cs ↔
        ∀ l ∈ (pieces '\n' cs).tail, ∀ c ∈ l.take columns, isBlank c) := by
  cases h : pieces '\n' cs with
  | nil => exact absurd h (pieces_ne_nil '\n' cs)
  | cons line ls =>
    have hink : ink cs = ink line ++ ls.flatMap ink := by
      rw [← join_pieces '\n' cs, h, ink_join rfl, List.flatMap_cons]
    obtain ⟨hsublist, hiff⟩ := ink_drop_lines columns ls
    rw [ink_dropColumns columns h, hink, List.append_cancel_left_eq, List.tail_cons]
    exact ⟨(List.Sublist.refl _).append hsublist, hiff⟩

end Text

namespace SymbolTree

/-- The column at which a symbol starts, in bytes. -/
def columnOf (t : SymbolTree) (n : Nat) : Nat :=
  match t.get? n with
  | some s => s.span.first.column
  | none => 0

/-- The content of a symbol is its text without the columns before it. -/
theorem contentOf_eq (t : SymbolTree) (n : Nat) :
    t.contentOf n = Text.dropColumns (t.columnOf n) (t.textOf n) := by
  rw [contentOf, columnOf, textOf]
  cases t.get? n <;> rfl

/-- The code of a symbol has nothing that its text has not, in the same order, and it has all
    of it exactly if each line of the text but the first is blank up to the start column. -/
theorem ink_contentOf (t : SymbolTree) (n : Nat) :
    (Text.ink (t.contentOf n)).Sublist (Text.ink (t.textOf n)) ∧
      (Text.ink (t.contentOf n) = Text.ink (t.textOf n) ↔
        ∀ line ∈ (Text.pieces '\n' (t.textOf n)).tail,
          ∀ c ∈ line.take (t.columnOf n), Text.isBlank c) := by
  rw [contentOf_eq]
  exact Text.ink_dropColumns_eq_iff ..

/-- A function that is bound to a variable, and starts behind the keyword. -/
def arrowText : String := "const f = () => \x7b\n  return 1;\n\x7d;\n"

/-- The syntax tree of that text. -/
def arrowTree : SourceTree :=
  let node (kind field : String) (start stop : Nat) : SourceNode :=
    { kind, field, span := Span.of (Text.encode arrowText) start stop }
  { root := node "program" "" 0 33
    inner := Forest.tree (node "lexical_declaration" "" 0 32) [
      Forest.tree (node "variable_declarator" "" 6 31) [
        Forest.tree (node "identifier" "name" 6 7) [],
        Forest.tree (node "arrow_function" "value" 10 31) [
          Forest.tree (node "formal_parameters" "parameters" 10 12) [],
          Forest.tree (node "statement_block" "body" 16 31) [
            Forest.tree (node "return_statement" "" 20 29) [
              Forest.tree (node "number" "" 27 28) []]]]]] }

/-- The lines of its body are indented less far than its name, and lose code. -/
theorem ink_contentOf_arrow :
    let T := build arrowTree
      (Occurrence.find Query.javascript arrowTree (Text.encode arrowText)) arrowText
    T.IsSymbol 1 ∧ T.textOf 1 = "f = () => \x7b\n  return 1;\n\x7d".toList ∧
      T.contentOf 1 = "f = () => \x7b\nrn 1;\n".toList ∧
      Text.ink (T.contentOf 1) ≠ Text.ink (T.textOf 1) := by
  have hmatches : Query.javascript.allMatches arrowTree = [⟨4, 2, 4, [2, 3]⟩] :=
    Query.allMatches_eq (by decide) (by decide)
  have hfound : Occurrence.find Query.javascript arrowTree (Text.encode arrowText) =
      [⟨"f", 2⟩] := by
    rw [Occurrence.find, hmatches]
    decide +kernel
  rw [hfound]
  exact ⟨isSymbol_build.2 (by decide), by decide +kernel, by decide +kernel, by decide +kernel⟩

end SymbolTree

end SymbolPaths
