import Mathlib.Data.List.Induction
import SymbolPaths.Proofs.Symbol.Links

/-!
# The paths of symbols

The path of a symbol has the tags along the way from the root to it. It is kept in
the symbol, and can be made again from the links to parents. No tag has the
delimiter in it, so a path without empty tags is read back from its text, and the
index, which has only texts, leads to the last symbol with a path.

* `pathOf_build`, `path_build`: both paths of a symbol;
* `ancestors_build`: what is around a symbol is the way to it without the end;
* `at?_eq_some_iff`: the index by the texts of paths, and `at?_parse_eq_some_iff` by
  the paths;
* `at?_pathOf_eq_self_iff`: when the path of a symbol leads to it.

The path of a symbol is computed twice in a tree, once with the table of parents and as much fuel
as there are symbols, and once by climbing the links; both come to the tags along the way. The
index is made from all symbols in their order, and a later entry hides an earlier one with the
same text. As no tag has the delimiter in it, texts are the same only where paths are, but for a
tag that is empty.
-/

namespace SymbolPaths

/-- The delimiter is not left in a tag. -/
theorem delimiter_notMem_tagOf (name : String) : TagPath.delimiter ∉ (tagOf name).toList := by
  simp [tagOf, TagPath.delimiter, isTagChar]

namespace SymbolTree

variable {t : SourceTree} {found : List Occurrence} {text : String} {fuel m n p : Nat}

/-! ### Tags along the way -/

/-- The tag of a symbol is found by its number. -/
theorem tag_build : (build t found text).tag n = (tagTable found).getD n "" := by
  cases n with
  | zero => rfl
  | succ n => by_cases hn : n < found.length <;> simp [tagTable, tag, get?, build, hn]

/-- Given as many steps as the way is long, the tags are those along the way. -/
theorem tagsTo_eq (h : (wayTo t found n).length ≤ fuel) :
    tagsTo (parentTable t found) (tagTable found) fuel n =
      (wayTo t found n).map ((tagTable found).getD · "") := by
  induction fuel generalizing n with
  | zero => rw [List.length_eq_zero_iff.1 (Nat.le_zero.1 h)]; rfl
  | succ fuel ih =>
    rw [tagsTo, Array.getD_eq_getD_getElem?, getD_parentTable]
    cases hn : nodeOf? found n with
    | none => rw [wayTo, hn]; rfl
    | some node =>
      -- The way to the parent is shorter by one, which pays for this step.
      rw [wayTo_of_nodeOf? hn, List.length_append] at h
      rw [wayTo_of_nodeOf? hn, List.map_append, ← ih (Nat.le_of_succ_le_succ h)]
      rfl

/-- The path of a symbol is gathered going up, with enough fuel for all symbols. -/
theorem pathOf_eq_tagsTo : (build t found text).pathOf n =
    ⟨tagsTo (parentTable t found) (tagTable found) (parentTable t found).size n⟩ := by
  cases n with
  | zero => rfl
  | succ n =>
    by_cases hn : n < found.length
    · simp [pathOf, get?, build, hn, Nat.add_comm 1]
    · have hway : wayTo t found (n + 1) = [] := by simp [wayTo, nodeOf?, hn]
      rw [tagsTo_eq (by simp [hway]), hway]
      simp [pathOf, get?, build, hn, TagPath.empty]

/-- The path of a symbol has the tags along the way to it. -/
theorem pathOf_build : (build t found text).pathOf n =
    ⟨(wayTo t found n).map (build t found text).tag⟩ := by
  have htag : (build t found text).tag = ((tagTable found).getD · "") := funext fun _ => tag_build
  rw [htag, pathOf_eq_tagsTo, tagsTo_eq]
  simpa [parentTable] using Nat.le_succ_of_le length_wayTo_le

/-- The climb from a symbol meets what is around it, innermost first. -/
theorem climb_eq (h : (wayTo t found n).length ≤ fuel) :
    (build t found text).climb fuel n = (wayTo t found n).dropLast.reverse := by
  induction fuel generalizing n with
  | zero => rw [List.length_eq_zero_iff.1 (Nat.le_zero.1 h)]; rfl
  | succ fuel ih =>
    rw [climb]
    cases hp : (build t found text).parent? n with
    | none => rw [wayTo_eq_nil hp]; rfl
    | some p =>
      rw [wayTo_of_parent? hp, List.length_append] at h
      rw [wayTo_of_parent? hp, List.dropLast_concat]
      simp only [ih (Nat.le_of_succ_le_succ h)]
      -- The climb leaves the root out, and so does the way.
      cases hq : (build t found text).parent? p with
      | none => simp [wayTo_eq_nil hq]
      | some q => simp [wayTo_of_parent? hq]

/-- The ancestors of a symbol are on the way to it. -/
theorem ancestors_build : (build t found text).ancestors n = (wayTo t found n).dropLast := by
  rw [ancestors, climb_eq, List.reverse_reverse]
  rw [size_symbols_build]
  exact Nat.le_succ_of_le length_wayTo_le

/-- What is around a symbol is the way to its parent. -/
theorem ancestors_of_parent? (h : (build t found text).parent? n = some p) :
    (build t found text).ancestors n = wayTo t found p := by
  rw [ancestors_build, wayTo_of_parent? h, List.dropLast_concat]

/-- The path by the links to parents is the one kept in the symbol. -/
theorem path_build : (build t found text).path n = (build t found text).pathOf n := by
  rw [path, pathOf_build, ancestors_build]
  cases hp : (build t found text).parent? n with
  | none => simp [wayTo_eq_nil hp]
  | some p => simp [wayTo_of_parent? hp]

/-- The path of a symbol is that of its parent, and its tag. -/
theorem pathOf_of_parent? (h : (build t found text).parent? n = some p) :
    (build t found text).pathOf n =
      ((build t found text).pathOf p).child ((build t found text).tag n) := by
  rw [pathOf_build, pathOf_build, wayTo_of_parent? h, List.map_append]
  rfl

/-! ### The index -/

/-- No tag of a tree has the delimiter in it, so paths can be told from their texts. -/
theorem delimiter_notMem_tag : TagPath.delimiter ∉ ((build t found text).tag n).toList := by
  rw [tag_build]
  cases n with
  | zero => simp [tagTable]
  | succ n =>
    by_cases hn : n < found.length <;> simp [tagTable, hn, delimiter_notMem_tagOf]

/-- The paths of symbols that can be looked up are read back from their texts. -/
theorem parse_toText_pathOf (h : ((build t found text).pathOf n).isAddressable) :
    TagPath.parse ((build t found text).pathOf n).toText = (build t found text).pathOf n := by
  refine TagPath.parse_toText (fun tag htag => ?_) (fun heq => ?_)
  · rw [pathOf_build] at htag
    obtain ⟨_, _, rfl⟩ := List.mem_map.1 htag
    exact delimiter_notMem_tag
  · simp [heq, TagPath.isAddressable] at h

/-- The index has the paths that can be looked up, the latest first. -/
theorem index_build : (build t found text).index =
    (((List.range' 1 found.length).filter
      fun n => ((build t found text).pathOf n).isAddressable).map
        fun n => (((build t found text).pathOf n).toText, n)).reverse := by
  simp only [pathOf_eq_tagsTo]
  rw [← List.zipIdx_map_snd 1 found]
  simp only [build, List.filter_map, List.map_map]
  rfl

/-- A number that is entered later hides those entered with the same key. -/
theorem lookup_reverse_map (key : Nat → String) (l : List Nat) (s : String) :
    (l.map fun n => (key n, n)).reverse.lookup s = (l.filter (key · = s)).getLast? := by
  induction l using List.reverseRecOn with
  | nil => rfl
  | append_singleton l n ih =>
    by_cases h : key n = s
    · simp [h]
    · have hne : (s == key n) = false := beq_false_of_ne (Ne.symm h)
      rw [List.map_append, List.reverse_append, List.map_singleton, List.reverse_singleton,
        List.singleton_append, List.lookup_cons, hne, ih]
      simp [h]

/-- The index leads to the last symbol among those whose path is written like this. -/
theorem at?_eq_some_iff {path : TagPath} : (build t found text).at? path = some m ↔
    IsGreatest {n | (build t found text).IsSymbol n ∧
      ((build t found text).pathOf n).isAddressable ∧
      ((build t found text).pathOf n).toText = path.toText} m := by
  rw [at?, index_build, lookup_reverse_map,
    getLast?_eq_some_iff_isGreatest (.filter _ (.filter _ List.pairwise_lt_range'))]
  simp only [List.mem_filter, List.mem_range'_1, decide_eq_true_eq, Nat.add_comm 1,
    Nat.lt_succ_iff, Nat.succ_le_iff, and_assoc, isSymbol_build]

/-! ### Symbols by their paths -/

/-- Every symbol has a path with a tag in it. -/
theorem tags_pathOf_ne_nil (h : (build t found text).IsSymbol n) :
    ((build t found text).pathOf n).tags ≠ [] := by
  obtain ⟨p, hp⟩ := exists_parent? h
  simp [pathOf_of_parent? hp, TagPath.child]

/-- A symbol can be addressed if no tag on its path is empty. -/
theorem isAddressable_pathOf (h : (build t found text).IsSymbol n) :
    ((build t found text).pathOf n).isAddressable ↔
      "" ∉ ((build t found text).pathOf n).tags := by
  simp only [TagPath.isAddressable, tags_pathOf_ne_nil h, ne_eq, not_false_eq_true, decide_true,
    Bool.true_and, List.all_eq_true, decide_eq_true_eq]
  exact ⟨fun h hmem => h "" hmem rfl, fun h tag htag heq => h (heq ▸ htag)⟩

/-- A path that is written like that of a symbol which can be looked up leads
    somewhere. -/
theorem exists_at? {path : TagPath} (hn : (build t found text).IsSymbol n)
    (haddr : ((build t found text).pathOf n).isAddressable)
    (htext : ((build t found text).pathOf n).toText = path.toText) :
    ∃ m, (build t found text).at? path = some m := by
  simp only [at?_eq_some_iff]
  exact BddAbove.exists_isGreatest_of_nonempty ⟨_, fun j hj => hj.1.2⟩ ⟨n, hn, haddr, htext⟩

/-- A path that is read from a text leads to the last symbol with this path, if no
    tag of it is empty. -/
theorem at?_parse_eq_some_iff {s : String} :
    (build t found text).at? (TagPath.parse s) = some m ↔
      IsGreatest {n | (build t found text).IsSymbol n ∧
        (build t found text).pathOf n = TagPath.parse s ∧
        "" ∉ ((build t found text).pathOf n).tags} m := by
  rw [at?_eq_some_iff]
  refine iff_of_eq (congrArg (IsGreatest · m) (Set.ext fun n => ?_))
  refine and_congr_right fun hn => ?_
  rw [isAddressable_pathOf hn, and_comm, TagPath.toText_parse]
  refine and_congr_left fun hempty => ⟨fun h => ?_, fun h => ?_⟩
  · rw [← parse_toText_pathOf ((isAddressable_pathOf hn).2 hempty), h]
  · rw [h, TagPath.toText_parse]

/-- The path of a symbol leads to it if it can be looked up and no later symbol has
    it. -/
theorem at?_pathOf_eq_self_iff (h : (build t found text).IsSymbol n) :
    (build t found text).at? ((build t found text).pathOf n) = some n ↔
      "" ∉ ((build t found text).pathOf n).tags ∧
        ∀ j, (build t found text).IsSymbol j → n < j →
          (build t found text).pathOf j ≠ (build t found text).pathOf n := by
  rw [at?_eq_some_iff]
  constructor
  · rintro ⟨⟨_, haddr, _⟩, hlast⟩
    refine ⟨(isAddressable_pathOf h).1 haddr, fun j hj hnj heq => ?_⟩
    exact absurd (hlast ⟨hj, heq ▸ haddr, heq ▸ rfl⟩) (Nat.not_le.2 hnj)
  · rintro ⟨hempty, hlater⟩
    have haddr := (isAddressable_pathOf h).2 hempty
    refine ⟨⟨h, haddr, rfl⟩, fun j ⟨hj, hjaddr, htext⟩ => Nat.not_lt.1 fun hnj => ?_⟩
    refine hlater j hj hnj ?_
    rw [← parse_toText_pathOf hjaddr, htext, parse_toText_pathOf haddr]

/-- The paths of the symbols of a tree and what they lead to. -/
structure IsAddressed (t : SymbolTree) : Prop where
  /-- Three ways to the path of a symbol. -/
  path_eq : ∀ n, t.IsSymbol n → t.path n = t.pathOf n ∧
    ∃ p, t.parent? n = some p ∧ t.pathOf n = (t.pathOf p).child (t.tag n)
  /-- A text leads to the last symbol with the path that it reads as. -/
  at?_parse_eq_some_iff : ∀ s m, t.at? (TagPath.parse s) = some m ↔
    IsGreatest {n | t.IsSymbol n ∧ t.pathOf n = TagPath.parse s ∧ "" ∉ (t.pathOf n).tags} m
  /-- A text leads somewhere if any such symbol has the path. -/
  at?_parse_isSome_iff : ∀ s, (t.at? (TagPath.parse s)).isSome ↔
    ∃ n, t.IsSymbol n ∧ t.pathOf n = TagPath.parse s ∧ "" ∉ (t.pathOf n).tags
  /-- A symbol is found by its own path if no later one has it, and no tag of it is empty. -/
  at?_path_eq_self_iff : ∀ n, t.IsSymbol n → (t.at? (t.path n) = some n ↔
    "" ∉ (t.path n).tags ∧ ∀ j, t.IsSymbol j → n < j → t.path j ≠ t.path n)
  /-- No path at all leads to a symbol with an empty tag on its path. -/
  of_at?_eq_some : ∀ path m, t.at? path = some m → t.IsSymbol m ∧ "" ∉ (t.pathOf m).tags

/-- Whatever the matches are, the tree finds symbols by their paths. -/
theorem isAddressed_build (t : SourceTree) (found : List Occurrence) (text : String) :
    (build t found text).IsAddressed where
  path_eq n hn := by
    obtain ⟨p, hp⟩ := exists_parent? hn
    exact ⟨path_build, p, hp, pathOf_of_parent? hp⟩
  at?_parse_eq_some_iff _ _ := at?_parse_eq_some_iff
  at?_parse_isSome_iff s := by
    rw [Option.isSome_iff_exists]
    refine ⟨fun ⟨m, hm⟩ => ⟨m, (at?_parse_eq_some_iff.1 hm).1⟩, fun ⟨n, hn, hpath, hempty⟩ => ?_⟩
    exact exists_at? hn ((isAddressable_pathOf hn).2 hempty) (by rw [hpath])
  at?_path_eq_self_iff n hn := by
    simp only [path_build]
    exact at?_pathOf_eq_self_iff hn
  of_at?_eq_some path m h := by
    obtain ⟨hm, haddr, _⟩ := (at?_eq_some_iff.1 h).1
    exact ⟨hm, (isAddressable_pathOf hm).1 haddr⟩

end SymbolTree

end SymbolPaths
