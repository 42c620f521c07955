import Mathlib.Data.List.Nodup
import Mathlib.Data.List.Perm.Subperm
import Mathlib.Logic.Relation
import Mathlib.Data.Nat.SuccPred
import SymbolPaths.Proofs.Forest
import SymbolPaths.Symbol.Tree

/-!
# The links of symbol trees

The parents of symbols are found in the syntax tree, and their numbers say
nothing about who is above whom: a symbol may well come before the one around
it, and several may share a node. What does say it are the nodes: the parent of
a symbol is at a node strictly above its own.

* `around`: the symbols around a node, which are the last ones at each node
  above it; the way from the root to a symbol goes through these (`wayTo`);
* `wayTo_of_parent?`: one step down adds one symbol to the way, and yet no way is
  longer than there are symbols (`length_wayTo_le`);
* `mem_children_iff`, `reaches_root`: the links down are those up, and these lead
  to the root, which makes the symbols a forest (`IsForest`).

The measure for everything that goes up is the way: a list of the symbols from the root to a
symbol, which is one longer than that of the parent. It cannot repeat a symbol, as it has at most
one for each node and the nodes are strictly one above the other. So no way is longer than there
are symbols, which is the bound that loops over the links run with.
-/

namespace SymbolPaths

/-! ### Numbered entries -/

/-- The numbers of the entries of a list with `q`, counted from one. -/
def numbered {α : Type} (q : α → Bool) (l : List α) : List Nat :=
  ((l.zipIdx 1).filter (q ·.1)).map (·.2)

/-- An entry is known by its number. -/
theorem mem_numbered {α : Type} {q : α → Bool} {l : List α} {n : Nat} :
    n ∈ numbered q l ↔ ∃ k a, n = k + 1 ∧ l[k]? = some a ∧ q a := by
  simp only [numbered, List.mem_map, List.mem_filter, Prod.exists,
    List.mem_zipIdx_iff_le_and_getElem?_sub]
  constructor
  · rintro ⟨a, _, ⟨⟨hn, ha⟩, hq⟩, rfl⟩
    exact ⟨_, a, (Nat.sub_add_cancel hn).symm, ha, hq⟩
  · rintro ⟨k, a, rfl, ha, hq⟩
    exact ⟨a, k + 1, ⟨⟨Nat.le_add_left 1 k, ha⟩, hq⟩, rfl⟩

theorem numbered_congr {α : Type} {q r : α → Bool} {l : List α} (h : ∀ a ∈ l, q a = r a) :
    numbered q l = numbered r l := by
  rw [numbered, numbered, List.filter_congr fun x hx => h x.1 (List.fst_mem_of_mem_zipIdx hx)]

/-- Numbers increase along the list. -/
theorem pairwise_numbered {α : Type} (q : α → Bool) (l : List α) :
    (numbered q l).Pairwise (· < ·) := by
  have h : (numbered q l).Sublist (List.range' 1 l.length) := by
    rw [← List.zipIdx_map_snd 1 l]
    exact List.filter_sublist.map _
  exact .sublist h List.pairwise_lt_range'

/-- The last entry of a list whose entries increase is the greatest. -/
theorem getLast?_eq_some_iff_isGreatest {l : List Nat} (h : l.Pairwise (· < ·)) {k : Nat} :
    l.getLast? = some k ↔ IsGreatest {j | j ∈ l} k := by
  have hlast : ∀ j, l.getLast? = some j → IsGreatest {j | j ∈ l} j := by
    intro j hj
    obtain ⟨l, rfl⟩ := List.getLast?_eq_some_iff.1 hj
    refine ⟨by simp, fun i hi => ?_⟩
    rcases List.mem_append.1 hi with hi | hi
    · exact Nat.le_of_lt ((List.pairwise_append.1 h).2.2 i hi j (by simp))
    · exact Nat.le_of_eq (List.mem_singleton.1 hi)
  refine ⟨hlast k, fun hk => ?_⟩
  obtain ⟨j, hj⟩ := Option.isSome_iff_exists.1
    (List.getLast?_isSome.2 (List.ne_nil_of_mem hk.1))
  rw [hj, (hlast j hj).unique hk]

namespace SymbolTree

variable {t : SourceTree} {found : List Occurrence} {text : String} {k m n node p : Nat}

/-! ### Numbers and nodes -/

/-- The node of the symbol with a number. The root has none of its own. -/
def nodeOf? (found : List Occurrence) : Nat → Option Nat
  | 0 => none
  | n + 1 => found[n]?.map (·.node)

/-- Symbols are numbered from one on, and all of them have nodes. -/
theorem nodeOf?_isSome : (nodeOf? found n).isSome ↔ 0 < n ∧ n ≤ found.length := by
  cases n with
  | zero => simp [nodeOf?]
  | succ n => simp [nodeOf?]

/-- The symbols at a node are numbered among all of them. -/
theorem mem_numbered_node :
    n ∈ numbered (fun o : Occurrence => o.node = node) found ↔ nodeOf? found n = some node := by
  cases n with
  | zero => simp [mem_numbered, nodeOf?]
  | succ n => simp [mem_numbered, nodeOf?]

/-- The owner of a node is the last symbol at it. -/
theorem ownerOf?_eq_some_iff :
    ownerOf? found node = some k ↔ IsGreatest {j | nodeOf? found j = some node} k := by
  have h : ownerOf? found node =
      (numbered (fun o : Occurrence => o.node = node) found).getLast? := by
    simp [ownerOf?, numbered]
  rw [h, getLast?_eq_some_iff_isGreatest (pairwise_numbered _ _)]
  simp only [mem_numbered_node]

theorem nodeOf?_of_ownerOf? (h : ownerOf? found node = some k) : nodeOf? found k = some node :=
  (ownerOf?_eq_some_iff.1 h).1

/-- The owner of a node is a symbol at no other node. -/
theorem eq_of_ownerOf? (h : ownerOf? found m = some k) (hk : nodeOf? found k = some node) :
    m = node :=
  Option.some.inj ((nodeOf?_of_ownerOf? h).symm.trans hk)

theorem ne_zero_of_nodeOf? (h : nodeOf? found n = some node) : n ≠ 0 := by
  rintro rfl
  simp [nodeOf?] at h

/-- Every node of a symbol has an owner. -/
theorem exists_ownerOf? (h : nodeOf? found n = some node) : ∃ k, ownerOf? found node = some k := by
  simp only [ownerOf?_eq_some_iff]
  refine BddAbove.exists_isGreatest_of_nonempty ⟨found.length, fun j hj => ?_⟩ ⟨n, h⟩
  exact (nodeOf?_isSome.1 (Option.isSome_of_eq_some hj)).2

/-! ### The way to a symbol -/

/-- The symbols around a node, outermost first: the owners of the nodes strictly
    above it that have one. -/
def around (t : SourceTree) (found : List Occurrence) (node : Nat) : List Nat :=
  (t.above node).filterMap (ownerOf? found)

/-- The way from the root to a symbol: the symbols around it, and the symbol. -/
def wayTo (t : SourceTree) (found : List Occurrence) (n : Nat) : List Nat :=
  match nodeOf? found n with
  | none => []
  | some node => around t found node ++ [n]

/-- The parent that is found for a node is the innermost symbol around it, or the root. -/
theorem parentAt_eq : parentAt t found node = (around t found node).getLast?.getD 0 := by
  simp [parentAt, around]

theorem getLast?_around (h : parentAt t found node ≠ 0) :
    (around t found node).getLast? = some (parentAt t found node) := by
  rw [parentAt_eq] at h ⊢
  cases hp : (around t found node).getLast? with
  | none => exact absurd (by rw [hp]; rfl) h
  | some p => rfl

/-- The innermost symbol around a node owns the nearest node above it that has an
    owner. -/
theorem exists_nearest (h : (around t found node).getLast? = some p) :
    ∃ l₁ m l₂, t.above node = l₁ ++ m :: l₂ ∧ ownerOf? found m = some p ∧
      ∀ x ∈ l₂, ownerOf? found x = none := by
  rw [around, List.getLast?_filterMap, List.findSome?_eq_some_iff] at h
  obtain ⟨l₂, m, l₁, hl, hm, hnone⟩ := h
  refine ⟨l₁.reverse, m, l₂.reverse, ?_, hm, fun x hx => hnone x (List.mem_reverse.1 hx)⟩
  rw [← List.reverse_reverse (t.above node), hl]
  simp

/-- The innermost symbol around a node is at a node strictly above it, and around
    that one are the others. -/
theorem around_of_getLast? (h : (around t found node).getLast? = some p) :
    ∃ m ∈ t.above node, nodeOf? found p = some m ∧
      around t found node = around t found m ++ [p] := by
  obtain ⟨l₁, m, l₂, habove, hm, hnone⟩ := exists_nearest h
  refine ⟨m, by simp [habove], nodeOf?_of_ownerOf? hm, ?_⟩
  rw [around, around, habove, SourceTree.above, Forest.enclosing_of_eq_append habove,
    List.filterMap_append, List.filterMap_cons_some hm, List.filterMap_eq_nil_iff.2 hnone]

theorem mem_around : k ∈ around t found node ↔ ∃ m ∈ t.above node, ownerOf? found m = some k :=
  List.mem_filterMap

/-- No symbol is around a node twice, as it is at one node only. -/
theorem nodup_around : (around t found node).Nodup := by
  refine List.Nodup.filterMap (fun m m' k hm hm' => ?_) (Forest.pairwise_enclosing.imp Nat.ne_of_lt)
  exact eq_of_ownerOf? hm (nodeOf?_of_ownerOf? hm')

/-- The way to a symbol at a node is the way to the parent that is found there, and
    the symbol. -/
theorem wayTo_of_nodeOf? (h : nodeOf? found n = some node) :
    wayTo t found n = wayTo t found (parentAt t found node) ++ [n] := by
  have hway : wayTo t found n = around t found node ++ [n] := by rw [wayTo, h]
  rw [hway, parentAt_eq]
  cases hp : (around t found node).getLast? with
  | none => rw [List.getLast?_eq_none_iff.1 hp]; rfl
  | some p =>
    obtain ⟨m, _, hm, haround⟩ := around_of_getLast? hp
    rw [haround, Option.getD_some, wayTo, hm]

/-- No way is longer than there are symbols. -/
theorem length_wayTo_le : (wayTo t found n).length ≤ found.length := by
  rw [wayTo]
  split
  · exact Nat.zero_le _
  · next node hn =>
    have hnot : n ∉ around t found node := by
      intro h
      obtain ⟨m, hm, hk⟩ := mem_around.1 h
      obtain rfl := eq_of_ownerOf? hk hn
      exact Nat.lt_irrefl m (Forest.lt_of_mem_enclosing hm).2
    -- No symbol is on the way twice, and there are only so many.
    have hnodup : (around t found node ++ [n]).Nodup := by
      rw [List.nodup_append_comm]
      exact List.nodup_cons.2 ⟨hnot, nodup_around⟩
    have hsub : around t found node ++ [n] ⊆ List.range' 1 found.length := by
      intro k hk
      have hsome : (nodeOf? found k).isSome := by
        rcases List.mem_append.1 hk with hk | hk
        · obtain ⟨m, _, hm⟩ := mem_around.1 hk
          simp [nodeOf?_of_ownerOf? hm]
        · simp [List.mem_singleton.1 hk, hn]
      have := nodeOf?_isSome.1 hsome
      simp only [List.mem_range'_1]
      omega
    simpa using (hnodup.subperm hsub).length_le

/-! ### The links of a built tree -/

/-- A tree has a root, and a symbol for each match. -/
theorem size_symbols_build : (build t found text).symbols.size = found.length + 1 := by
  simp [build]

/-- Whether a number is that of a symbol, rather than the root. -/
def IsSymbol (t : SymbolTree) (n : Nat) : Prop := 0 < n ∧ n ≤ t.size

theorem isSymbol_build : (build t found text).IsSymbol n ↔ 0 < n ∧ n ≤ found.length := by
  rw [IsSymbol, size, size_symbols_build, Nat.add_sub_cancel]

/-- The table of parents tells for each symbol what is found for its node. -/
theorem getD_parentTable :
    (parentTable t found)[n]?.getD none = (nodeOf? found n).map (parentAt t found) := by
  cases n with
  | zero => rfl
  | succ n => by_cases hn : n < found.length <;> simp [parentTable, nodeOf?, hn]

/-- The parent of a symbol is the one that is found for its node. -/
theorem parent?_build :
    (build t found text).parent? n = (nodeOf? found n).map (parentAt t found) := by
  cases n with
  | zero => rfl
  | succ n =>
    by_cases hn : n < found.length
    · simp [parent?, get?, build, getD_parentTable, hn, Nat.add_comm 1]
    · simp [parent?, get?, build, nodeOf?, hn]

/-- A parent is a symbol of the same tree. -/
theorem parentAt_le : parentAt t found node ≤ found.length := by
  by_cases h : parentAt t found node = 0
  · omega
  · obtain ⟨m, _, hm, _⟩ := around_of_getLast? (getLast?_around h)
    exact (nodeOf?_isSome.1 (Option.isSome_of_eq_some hm)).2

/-- Each list of children gets those with this parent, one after the other. -/
theorem getElem?_foldl_modify (l : List (Nat × Nat)) (lists : Array (List Nat)) :
    (l.foldl (fun lists (q, k) => lists.modify q (· ++ [k])) lists)[p]? =
      lists[p]?.map (· ++ (l.filter (·.1 = p)).map (·.2)) := by
  induction l generalizing lists with
  | nil => simp
  | cons x l ih =>
    rw [List.foldl_cons, ih, Array.getElem?_modify]
    by_cases hx : x.1 = p
    · simp [hx, Function.comp_def]
    · simp [hx]

/-- The children of a symbol are those that have it as their parent, in the order of their
    numbers. -/
theorem getElem?_childLists {parents : List Nat} : (childLists parents)[p]? =
    if p ≤ parents.length then some (numbered (· = p) parents) else none := by
  rw [childLists, getElem?_foldl_modify, Array.getElem?_replicate]
  by_cases hp : p ≤ parents.length
  · simp [hp, Nat.lt_succ_iff.2 hp, numbered]
  · simp [hp, mt Nat.lt_succ_iff.1 hp]

/-- The lists of children of a tree are made from its parents, and nothing else. -/
theorem children_build : (build t found text).children n =
    numbered (fun o => parentAt t found o.node = n) found := by
  have hmap : numbered (· = n) (found.map (parentAt t found ·.node)) =
      numbered (fun o => parentAt t found o.node = n) found := by
    simp [numbered, List.zipIdx_map, List.filter_map, Function.comp_def]
  by_cases hn : n ≤ found.length
  · rw [← hmap]
    cases n with
    | zero => simp [children, get?, build, getElem?_childLists]
    | succ n =>
      simp [children, get?, build, getElem?_childLists, hn, Nat.add_comm 1]
  · -- There is no such symbol, and so it is nobody's parent.
    have hget : (build t found text).get? n = none :=
      Array.getElem?_eq_none (by rw [size_symbols_build]; omega)
    rw [children, hget, eq_comm, List.eq_nil_iff_forall_not_mem]
    intro k hk
    obtain ⟨_, _, _, _, ho⟩ := mem_numbered.1 hk
    exact hn (of_decide_eq_true ho ▸ parentAt_le)

/-- The links down are the links up. -/
theorem mem_children_iff :
    k ∈ (build t found text).children p ↔ (build t found text).parent? k = some p := by
  rw [children_build, mem_numbered, parent?_build]
  cases k with
  | zero => simp [nodeOf?]
  | succ k => simp [nodeOf?]

/-- One step down adds one symbol to the way. -/
theorem wayTo_of_parent? (h : (build t found text).parent? n = some p) :
    wayTo t found n = wayTo t found p ++ [n] := by
  rw [parent?_build, Option.map_eq_some_iff] at h
  obtain ⟨node, hn, rfl⟩ := h
  exact wayTo_of_nodeOf? hn

/-- The way to the root, and to what is no symbol, is empty. -/
theorem wayTo_eq_nil (h : (build t found text).parent? n = none) : wayTo t found n = [] := by
  rw [parent?_build, Option.map_eq_none_iff] at h
  rw [wayTo, h]

/-- All symbols have parents, and the root has none. -/
theorem parent?_isSome :
    ((build t found text).parent? n).isSome ↔ (build t found text).IsSymbol n := by
  rw [parent?_build, Option.isSome_map, nodeOf?_isSome, isSymbol_build]

theorem exists_parent? (h : (build t found text).IsSymbol n) :
    ∃ p, (build t found text).parent? n = some p :=
  Option.isSome_iff_exists.1 (parent?_isSome.2 h)

theorem parent?_eq_none_iff (hn : n ≤ found.length) :
    (build t found text).parent? n = none ↔ n = 0 := by
  rw [← Option.not_isSome_iff_eq_none, parent?_isSome, isSymbol_build]
  omega

theorem le_of_parent? (h : (build t found text).parent? n = some p) : p ≤ found.length := by
  rw [parent?_build, Option.map_eq_some_iff] at h
  obtain ⟨node, _, rfl⟩ := h
  exact parentAt_le

/-- From every symbol, the links to parents lead to the root: each of them
    takes one symbol off the way. -/
theorem reaches_root (hn : n ≤ found.length) :
    Relation.ReflTransGen (fun a b => (build t found text).parent? a = some b) n 0 := by
  induction hl : (wayTo t found n).length generalizing n with
  | zero =>
    cases hp : (build t found text).parent? n with
    | none =>
      rw [(parent?_eq_none_iff hn).1 hp]
    | some p => simp [wayTo_of_parent? hp] at hl
  | succ l ih =>
    obtain ⟨p, hp⟩ : ∃ p, (build t found text).parent? n = some p := by
      refine exists_parent? (isSymbol_build.2 ⟨Nat.pos_of_ne_zero ?_, hn⟩)
      rintro rfl
      exact absurd hl (by simp [wayTo, nodeOf?])
    rw [wayTo_of_parent? hp, List.length_append] at hl
    exact .head hp (ih (le_of_parent? hp) (Nat.succ.inj hl))

/-- The links of a tree make its symbols, `count` of them, a forest under the
    root. -/
structure IsForest (t : SymbolTree) (count : Nat) : Prop where
  /-- There is a symbol for each match, and the root. -/
  size_symbols : t.symbols.size = count + 1
  /-- Each is found by its own number. -/
  number_eq : ∀ n s, t.get? n = some s → s.number = n
  /-- Only the root has no parent. -/
  parent?_eq_none_iff : ∀ n, n ≤ count → (t.parent? n = none ↔ n = 0)
  /-- The links down are the links up. -/
  mem_children_iff : ∀ k p, k ∈ t.children p ↔ t.parent? k = some p
  /-- Every symbol is in one list of children, and there once. -/
  count_children : ∀ k, 0 < k → k ≤ count → ∃ p, p ≤ count ∧ (t.children p).count k = 1 ∧
    ∀ q, q ≠ p → k ∉ t.children q
  /-- Children are listed in the order in which they were found. -/
  pairwise_children : ∀ p, (t.children p).Pairwise (· < ·)
  /-- From everywhere the parents lead to the root. -/
  reaches_root : ∀ n, n ≤ count →
    Relation.ReflTransGen (fun a b => t.parent? a = some b) n 0

/-- Whatever the matches are, the links of the tree make it a forest. -/
theorem isForest_build (t : SourceTree) (found : List Occurrence) (text : String) :
    (build t found text).IsForest found.length where
  size_symbols := size_symbols_build
  number_eq n s h := by
    cases n with
    | zero =>
      obtain rfl : _ = s := by simpa [get?, build] using h
      rfl
    | succ n =>
      obtain ⟨o, _, rfl⟩ : ∃ o, found[n]? = some o ∧ _ = s := by
        simpa [get?, build, List.getElem?_zipIdx] using h
      exact Nat.add_comm 1 n
  parent?_eq_none_iff _ hn := parent?_eq_none_iff hn
  mem_children_iff _ _ := mem_children_iff
  count_children k hpos hk := by
    obtain ⟨p, hp⟩ := exists_parent? (isSymbol_build.2 ⟨hpos, hk⟩ : (build t found text).IsSymbol k)
    refine ⟨p, le_of_parent? hp, ?_, fun q hq hkq => ?_⟩
    · have hnodup : ((build t found text).children p).Nodup := by
        rw [children_build]
        exact (pairwise_numbered _ _).imp Nat.ne_of_lt
      exact List.count_eq_one_of_mem hnodup (mem_children_iff.2 hp)
    · exact hq (Option.some.inj ((mem_children_iff.1 hkq).symm.trans hp))
  pairwise_children p := by
    rw [children_build]
    exact pairwise_numbered _ _
  reaches_root _ hn := reaches_root hn

/-- A file with a type definition (node 1) of a structure (node 2) with a field
    (node 3), and a function (node 4). -/
def typedefTree : SourceTree :=
  let node (kind : String) : SourceNode := { kind, field := "", span := default }
  { root := node "translation_unit"
    inner := .cons (node "type_definition")
      (.cons (node "struct_specifier") (.cons (node "field_declaration") .nil .nil) .nil)
      (.cons (node "function_definition") .nil .nil) }

/-- Symbols in that file: the field comes before the two names of the definition,
    and these come before the file. -/
def typedefSymbols : List Occurrence :=
  [⟨"x", 3⟩, ⟨"point", 1⟩, ⟨"Point", 1⟩, ⟨"file", 0⟩, ⟨"draw", 4⟩]

example : (build typedefTree typedefSymbols "").parent? 1 = some 3 := by decide

end SymbolTree

end SymbolPaths
