import SymbolPaths.Proofs.Link.Grammar
import SymbolPaths.Proofs.Query.Completion
import SymbolPaths.Proofs.Symbol.Path

/-!
# Links to symbols

A link to a symbol is the name of its file with the path of the symbol behind it. It is read up
to the first character that means something else in a link. Of these, names lose the mark before
the path, but neither the one before a caption nor the bracket at the end. So the link of a
symbol leads to it just if no tag on its path has one of the two.

* `exists_parseInner?`: what the inner form of a link is read as;
* `forall_mem_toText_pathOf_iff`: which paths are read to their end;
* `parseInner?_leads_iff`: which symbols are found by their links.

Names lose the delimiter of paths and the mark before a path when they become tags, and the two
characters that remain are the ones that the inner form excludes besides. So the path of a symbol
is read to its end exactly if none of its tags has one of these, and then the index leads to the
symbol if it leads there by the path at all.
-/

namespace SymbolPaths

open LinkParts

variable {file s : String}

/-! ### Reading links -/

/-- A name of a file with a text behind it is a link to that file. The path is read up to the
    first character that cannot be part of it, and if there is none nothing is left for a
    caption. -/
theorem exists_parseInner? (hne : file ≠ "") (hfile : ∀ c ∈ file.toList, isWikiChar c) :
    ∃ link, CodeLink.parseInner? (file ++ "#" ++ s) = some link ∧ link.file = file ∧
      link.path = (if s.toList.takeWhile isWikiChar = [] then none
        else some (TagPath.parse (String.ofList (s.toList.takeWhile isWikiChar)))) ∧
      ((∀ c ∈ s.toList, isWikiChar c) → link.caption = none) := by
  have hlist : (file ++ "#" ++ s).toList = file.toList ++ '#' :: s.toList := by simp
  have hnil : file.toList ≠ [] := fun h => hne (String.toList_eq_nil_iff.1 h)
  have hstart := (isWikiPart_iff.2 ⟨hnil, hfile⟩).dropWhile_append ('#' :: s.toList)
  have hmark : ∀ c ∈ ('#' :: s.toList).head?, isWikiChar c = false := by
    rintro c ⟨⟩
    decide
  rw [CodeLink.parseInner?, hlist, hstart, readWiki?, takeWhile_append_of_head hfile hmark,
    dropWhile_append_of_head hfile hmark, if_neg hnil]
  -- A mark that no path stands behind ends the link.
  by_cases hread : s.toList.takeWhile isWikiChar = []
  · rw [readMarked_of_takeWhile_eq_nil hread, if_pos hread]
    simp only [readMarked_of_ne (by decide : '#' ≠ '|')]
    exact ⟨_, rfl, String.ofList_toList, rfl, fun _ => rfl⟩
  · rw [readMarked_self hread, if_neg hread]
    refine ⟨_, rfl, String.ofList_toList, rfl, fun hs => ?_⟩
    have hend : s.toList.dropWhile isWikiChar = [] := List.dropWhile_eq_nil_iff.2 hs
    rw [hend]
    rfl

/-! ### Paths in links -/

/-- What is true of the delimiter is true of all characters of a path if it is true of those of the
    tags. -/
theorem forall_mem_join_iff {d : Char} {ps : List (List Char)} {P : Char → Prop} (hd : P d) :
    (∀ c ∈ Text.join d ps, P c) ↔ ∀ p ∈ ps, ∀ c ∈ p, P c := by
  fun_induction Text.join d ps with
  | case1 => simp
  | case2 p => simp
  | case3 p q ps ih =>
    rw [List.forall_mem_append, List.forall_mem_cons, ih, List.forall_mem_cons (a := p)]
    exact and_congr_right fun _ => and_iff_right hd

namespace SymbolTree

variable {t : SourceTree} {found : List Occurrence} {text : String} {n : Nat}

/-- Tags consist of what is left of names. -/
theorem isTagChar_of_mem_tag {c : Char} (hc : c ∈ ((build t found text).tag n).toList) :
    isTagChar c := by
  rw [tag_build] at hc
  cases n with
  | zero => simp [tagTable] at hc
  | succ n =>
    by_cases hn : n < found.length
    · have hname : c ∈ (tagOf found[n].name).toList := by simpa [tagTable, hn] using hc
      rw [tagOf, String.toList_ofList] at hname
      exact (List.mem_filter.1 hname).2
    · simp [tagTable, hn] at hc

/-- A path can be read to its end if its tags can: neither they nor the delimiter between them
    have the mark before a path. -/
theorem forall_mem_toText_pathOf_iff :
    (∀ c ∈ ((build t found text).pathOf n).toText.toList, isWikiChar c) ↔
      ∀ tag ∈ ((build t found text).pathOf n).tags, '|' ∉ tag.toList ∧ ']' ∉ tag.toList := by
  have hdelimiter : isWikiChar TagPath.delimiter := by decide
  rw [TagPath.toText, String.toList_ofList, forall_mem_join_iff hdelimiter, pathOf_build,
    List.forall_mem_map, List.forall_mem_map, List.forall_mem_map]
  refine forall₂_congr fun m _ => ?_
  constructor
  · exact fun h => ⟨fun hc => absurd (h _ hc) (by decide), fun hc => absurd (h _ hc) (by decide)⟩
  · rintro ⟨hbar, hbracket⟩ c hc
    have htag := isTagChar_of_mem_tag hc
    simp only [isWikiChar, Bool.and_eq_true, bne_iff_ne]
    refine ⟨⟨?_, ne_of_mem_of_not_mem hc hbar⟩, ne_of_mem_of_not_mem hc hbracket⟩
    -- The third mark is not one that names keep in their tags.
    rintro rfl
    exact absurd htag (by decide)

/-- The link of a symbol that its path leads to is one of its file, and leads to the symbol just
    if no tag on the path has a mark that ends it. -/
theorem parseInner?_leads_iff (hn : (build t found text).IsSymbol n)
    (hempty : "" ∉ ((build t found text).pathOf n).tags)
    (hlast : ∀ j, (build t found text).IsSymbol j → n < j →
      (build t found text).pathOf j ≠ (build t found text).pathOf n)
    (hne : file ≠ "") (hfile : ∀ c ∈ file.toList, isWikiChar c) :
    ∃ link, CodeLink.parseInner? (file ++ "#" ++ ((build t found text).pathOf n).toText) =
        some link ∧ link.file = file ∧
      ((link.caption = none ∧
          ∃ path, link.path = some path ∧ (build t found text).at? path = some n) ↔
        ∀ tag ∈ ((build t found text).pathOf n).tags, '|' ∉ tag.toList ∧ ']' ∉ tag.toList) := by
  obtain ⟨link, hlink, hlinkfile, hpath, hcaption⟩ :=
    exists_parseInner? (s := ((build t found text).pathOf n).toText) hne hfile
  refine ⟨link, hlink, hlinkfile, ?_⟩
  rw [← forall_mem_toText_pathOf_iff]
  have hparse := parse_toText_pathOf ((isAddressable_pathOf hn).2 hempty)
  constructor
  · rintro ⟨_, path, hsome, hleads⟩
    rw [hpath] at hsome
    split at hsome
    · exact absurd hsome.symm (Option.some_ne_none path)
    · obtain rfl := Option.some.inj hsome
      -- The symbol that is found has the path that was read, and this is the whole one.
      have hread := congrArg TagPath.toText (at?_parse_eq_some_iff.1 hleads).1.2.1
      rw [TagPath.toText_parse] at hread
      have htext := congrArg String.toList hread
      rw [String.toList_ofList] at htext
      exact List.takeWhile_eq_self_iff.1 htext.symm
  · intro hall
    have hnil : ((build t found text).pathOf n).toText.toList ≠ [] := by
      intro hnil
      rw [TagPath.parse, if_pos hnil] at hparse
      exact tags_pathOf_ne_nil hn (congrArg TagPath.tags hparse.symm)
    refine ⟨hcaption hall, _, ?_, (at?_pathOf_eq_self_iff hn).2 ⟨hempty, hlast⟩⟩
    rw [hpath, List.takeWhile_eq_self_iff.2 hall, if_neg hnil, String.ofList_toList, hparse]

/-- A link to a field leads to it through the definition that it is in. -/
theorem parseInner?_leads_typedef :
    let T := build typedefTree typedefSymbols ""
    (T.IsSymbol 1 ∧ "" ∉ (T.pathOf 1).tags ∧
      (∀ j, T.IsSymbol j → 1 < j → T.pathOf j ≠ T.pathOf 1) ∧ "draw.c" ≠ "" ∧
      ∀ c ∈ "draw.c".toList, isWikiChar c) ∧ (T.pathOf 1).toText = "file>Point>x" ∧
    ∃ link, CodeLink.parseInner? "draw.c#file>Point>x" = some link ∧ link.file = "draw.c" ∧
      link.caption = none ∧ ∃ path, link.path = some path ∧ T.at? path = some 1 := by
  have hn : (build typedefTree typedefSymbols "").IsSymbol 1 := isSymbol_build.2 (by decide)
  have hempty : "" ∉ ((build typedefTree typedefSymbols "").pathOf 1).tags := by decide
  have hlast : ∀ j, (build typedefTree typedefSymbols "").IsSymbol j → 1 < j →
      (build typedefTree typedefSymbols "").pathOf j ≠
        (build typedefTree typedefSymbols "").pathOf 1 := by
    intro j hj hlt
    have hall : ∀ j < 6, 1 < j → (build typedefTree typedefSymbols "").pathOf j ≠
        (build typedefTree typedefSymbols "").pathOf 1 := by decide
    exact hall j (Nat.lt_succ_of_le (isSymbol_build.1 hj).2) hlt
  have hne : "draw.c" ≠ "" := by decide
  have hfile : ∀ c ∈ "draw.c".toList, isWikiChar c := List.all_eq_true.1 (by decide)
  obtain ⟨link, hlink, hlinkfile, hleads⟩ := parseInner?_leads_iff hn hempty hlast hne hfile
  obtain ⟨hcaption, hpath⟩ := hleads.2 (by decide)
  exact ⟨⟨hn, hempty, hlast, hne, hfile⟩, by decide, link, hlink, hlinkfile, hcaption, hpath⟩

/-- A file with the definition of an operator. -/
def operatorText : String := "A operator|(A a, A b) { return a; }\n"

/-- The syntax tree of that file in C++. -/
def operatorTree : SourceTree :=
  let node (kind field : String) (start stop : Nat) : SourceNode :=
    { kind, field, span := Span.of (Text.encode operatorText) start stop }
  let parameter (start : Nat) : Forest SourceNode :=
    Forest.tree (node "parameter_declaration" "" start (start + 3)) [
      Forest.tree (node "type_identifier" "type" start (start + 1)) [],
      Forest.tree (node "identifier" "declarator" (start + 2) (start + 3)) []]
  { root := node "translation_unit" "" 0 36
    inner := Forest.tree (node "function_definition" "" 0 35) [
      Forest.tree (node "type_identifier" "type" 0 1) [],
      Forest.tree (node "function_declarator" "declarator" 2 21) [
        Forest.tree (node "operator_name" "declarator" 2 11) [],
        Forest.tree (node "parameter_list" "parameters" 11 21) [parameter 12, parameter 17]],
      Forest.tree (node "compound_statement" "body" 22 35) [
        Forest.tree (node "return_statement" "" 24 33) [
          Forest.tree (node "identifier" "" 31 32) []]]] }

/-- The link of an operator is cut at the mark in its name, and what is left of the path leads
    nowhere. -/
theorem parseInner?_operator :
    let T := build operatorTree
      (Occurrence.find Query.cpp operatorTree (Text.encode operatorText)) operatorText
    (T.IsSymbol 1 ∧ "" ∉ (T.pathOf 1).tags ∧
      (∀ j, T.IsSymbol j → 1 < j → T.pathOf j ≠ T.pathOf 1) ∧ "m.cpp" ≠ "" ∧
      ∀ c ∈ "m.cpp".toList, isWikiChar c) ∧
    (T.pathOf 1).toText = "operator|" ∧ T.at? (T.pathOf 1) = some 1 ∧
    ∃ link, CodeLink.parseInner? ("m.cpp" ++ "#" ++ (T.pathOf 1).toText) = some link ∧
      link.path = some ⟨["operator"]⟩ ∧ T.at? ⟨["operator"]⟩ = none := by
  have hmatches : Query.cpp.allMatches operatorTree = [⟨4, 1, 4, [1, 4]⟩] :=
    Query.allMatches_eq (by decide) (by decide)
  have hfound : Occurrence.find Query.cpp operatorTree (Text.encode operatorText) =
      [⟨"operator|", 1⟩] := by
    rw [Occurrence.find, hmatches]
    decide +kernel
  rw [hfound]
  have hfile : ∀ c ∈ "m.cpp".toList, isWikiChar c := List.all_eq_true.1 (by decide)
  refine ⟨⟨isSymbol_build.2 (by decide), by decide, fun j hj hlt => ?_, by decide, hfile⟩,
    by decide, by decide, _, rfl, by decide, by decide⟩
  have hle : j ≤ 1 := (isSymbol_build.1 hj).2
  omega

end SymbolTree

end SymbolPaths
