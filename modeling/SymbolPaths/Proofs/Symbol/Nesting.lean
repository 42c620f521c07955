import SymbolPaths.Proofs.Symbol.Path
import SymbolPaths.Proofs.Symbol.Search

/-!
# Symbols within symbols

A parser gives each node a part of what its parent covers, and siblings parts that lie one
after the other. In such a tree (`SourceTree.IsLaminar`) two nodes cover parts of the file
that are one within the other or apart, and so do their symbols.

* `Forest.IsLaminar.contains`, `Forest.IsLaminar.stop_le_start`: what a node covers, against
  what is covered above it and beside it;
* `forall₂_ancestors_build`: one symbol around for each marked node above, which is the last
  at that node;
* `isNested_build`: what this comes to for the symbols (`IsNested`).

That spans are nested is known of a node and its parent and of neighbours. For any two nodes it
follows by induction on the forest: a node is within all those above it, and two nodes neither of
which is above the other lie below two siblings, or are siblings, and so are apart. Symbols have
the spans of their nodes, and the nodes of the symbols around a symbol are nodes above its own.
-/

namespace SymbolPaths

/-! ### Spans in a syntax tree -/

/-- Whether a span covers all of another one. -/
def Span.Contains (a b : Span) : Prop := a.start ≤ b.start ∧ b.stop ≤ a.stop

instance (a b : Span) : Decidable (a.Contains b) := inferInstanceAs (Decidable (_ ∧ _))

theorem Span.Contains.trans {a b c : Span} (h : a.Contains b) (h' : b.Contains c) :
    a.Contains c :=
  ⟨Nat.le_trans h.1 h'.1, Nat.le_trans h'.2 h.2⟩

namespace Forest

variable {f : Forest SourceNode} {x y : SourceNode} {start m n : Nat}

/-- Whether each node covers what its children do, and each sibling is over before the
    later ones start. -/
def IsLaminar : Forest SourceNode → Prop
  | nil => True
  | cons a below after =>
    (∀ b ∈ below.roots, a.span.Contains b.span) ∧ (∀ b ∈ after.roots, a.span.stop ≤ b.span.start) ∧
      below.IsLaminar ∧ after.IsLaminar

instance decidableIsLaminar : (f : Forest SourceNode) → Decidable f.IsLaminar
  | nil => .isTrue trivial
  | cons _ below after =>
    have := decidableIsLaminar below
    have := decidableIsLaminar after
    inferInstanceAs (Decidable (_ ∧ _ ∧ below.IsLaminar ∧ after.IsLaminar))

/-- Every node lies within an outermost one. -/
theorem IsLaminar.exists_root (h : f.IsLaminar) (hy : y ∈ f.preorder) :
    ∃ b ∈ f.roots, b.span.Contains y.span := by
  induction f with
  | nil => cases hy
  | cons a below after ihb iha =>
    obtain ⟨hchildren, _, hbelow, hafter⟩ := h
    rw [preorder, List.mem_cons, List.mem_append] at hy
    rcases hy with rfl | hy | hy
    · exact ⟨y, List.mem_cons_self, Nat.le_refl _, Nat.le_refl _⟩
    · obtain ⟨b, hb, hby⟩ := ihb hbelow hy
      exact ⟨a, List.mem_cons_self, (hchildren b hb).trans hby⟩
    · obtain ⟨b, hb, hby⟩ := iha hafter hy
      exact ⟨b, List.mem_cons_of_mem a hb, hby⟩

/-- A node covers what is below it. -/
theorem IsLaminar.contains (h : f.IsLaminar) (hm : m ∈ f.enclosing start n)
    (hx : f.preorder[m - start]? = some x) (hy : f.preorder[n - start]? = some y) :
    x.span.Contains y.span := by
  -- The numbers of `below` follow that of `a`, and those of `after` follow them.
  induction f generalizing start with
  | nil => cases hm
  | cons a below after ihb iha =>
    obtain ⟨hchildren, _, hbelow, hafter⟩ := h
    rw [getElem?_preorder_cons] at hx hy
    rw [enclosing] at hm
    split at hm
    · cases hm
    · next hn =>
      rw [if_neg hn] at hy
      split at hm
      · next hlt =>
        rw [if_pos hlt] at hy
        rcases List.mem_cons.1 hm with rfl | hm
        · rw [if_pos (Nat.le_refl m)] at hx
          obtain ⟨b, hb, hby⟩ := hbelow.exists_root (List.mem_of_getElem? hy)
          exact Option.some.inj hx ▸ (hchildren b hb).trans hby
        · have := lt_of_mem_enclosing hm
          rw [if_neg (by omega), if_pos (by omega)] at hx
          exact ihb hbelow hm hx hy
      · next hlt =>
        have := lt_of_mem_enclosing hm
        rw [if_neg hlt] at hy
        rw [if_neg (by omega), if_neg (by omega)] at hx
        exact iha hafter hm hx hy

/-- A node is over before a later one starts that is not below it. -/
theorem IsLaminar.stop_le_start (h : f.IsLaminar) (hstart : start ≤ m) (hmn : m < n)
    (hm : m ∉ f.enclosing start n) (hx : f.preorder[m - start]? = some x)
    (hy : f.preorder[n - start]? = some y) : x.span.stop ≤ y.span.start := by
  induction f generalizing start with
  | nil => cases hx
  | cons a below after ihb iha =>
    obtain ⟨hchildren, hsiblings, hbelow, hafter⟩ := h
    rw [getElem?_preorder_cons] at hx hy
    rw [enclosing, if_neg (by omega)] at hm
    rw [if_neg (by omega)] at hy
    split at hm
    · next hlt =>
      -- Both are below the first node, which is not the earlier one.
      rw [List.mem_cons, not_or] at hm
      rw [if_pos hlt] at hy
      rw [if_neg (by omega), if_pos (by omega)] at hx
      exact ihb hbelow (by omega) hm.2 hx hy
    · next hlt =>
      rw [if_neg hlt] at hy
      by_cases hside : start + 1 + below.size ≤ m
      · rw [if_neg (by omega), if_neg (by omega)] at hx
        exact iha hafter hside hm hx hy
      · -- The earlier one is in the first tree, and the later one in another.
        have hfirst : x.span.stop ≤ a.span.stop := by
          split at hx
          · exact Nat.le_of_eq (Option.some.inj hx ▸ rfl)
          · rw [if_pos (by omega)] at hx
            obtain ⟨b, hb, hbx⟩ := hbelow.exists_root (List.mem_of_getElem? hx)
            exact ((hchildren b hb).trans hbx).2
        obtain ⟨b, hb, hby⟩ := hafter.exists_root (List.mem_of_getElem? hy)
        exact Nat.le_trans hfirst (Nat.le_trans (hsiblings b hb) hby.1)

end Forest

namespace SourceTree

variable {t : SourceTree} {a b : SourceNode} {x y : Nat}

/-- Whether each node covers what its children do, and siblings cover parts of the file one
    after the other. -/
def IsLaminar (t : SourceTree) : Prop := t.forest.IsLaminar

instance : Decidable t.IsLaminar := inferInstanceAs (Decidable t.forest.IsLaminar)

theorem node?_eq : t.node? x = t.forest.preorder[x - 0]? := by
  simp [node?, nodes, forest, Forest.preorder]

/-- A node is within all nodes above it. -/
theorem IsLaminar.contains (h : t.IsLaminar) (hxy : x ∈ t.above y) (hx : t.node? x = some a)
    (hy : t.node? y = some b) : a.span.Contains b.span := by
  rw [node?_eq] at hx hy
  exact Forest.IsLaminar.contains h hxy hx hy

theorem IsLaminar.stop_le_start (h : t.IsLaminar) (hlt : x < y) (hxy : x ∉ t.above y)
    (hx : t.node? x = some a) (hy : t.node? y = some b) : a.span.stop ≤ b.span.start := by
  rw [node?_eq] at hx hy
  exact Forest.IsLaminar.stop_le_start h (Nat.zero_le x) hlt hxy hx hy

end SourceTree

/-! ### Spans of symbols -/

namespace SymbolTree

variable {t : SourceTree} {found : List Occurrence} {text : String} {k m n x y : Nat}

/-- The part of the file that the symbol of a number covers. -/
def spanOf? (T : SymbolTree) (n : Nat) : Option Span := (T.get? n).map (·.span)

/-- A symbol covers what its node does. -/
theorem exists_spanOf?_build (hnodes : ∀ o ∈ found, o.node < t.nodes.length)
    (h : nodeOf? found n = some x) :
    ∃ a, t.node? x = some a ∧ (build t found text).spanOf? n = some a.span := by
  cases n with
  | zero => cases h
  | succ n =>
    obtain ⟨o, ho, rfl⟩ := Option.map_eq_some_iff.1 h
    obtain ⟨hn, rfl⟩ := List.getElem?_eq_some_iff.1 ho
    obtain ⟨a, ha⟩ : ∃ a, t.node? found[n].node = some a :=
      ⟨_, List.getElem?_eq_getElem (hnodes _ (List.getElem_mem hn))⟩
    exact ⟨a, ha, by simp [spanOf?, get?, build, hn, ha]⟩

/-- Around a symbol is one symbol for each marked node above its own, in the order of these:
    the last symbol at that node. -/
theorem forall₂_ancestors_build (h : nodeOf? found n = some x) :
    List.Forall₂ (fun k m => IsGreatest {j | nodeOf? found j = some m} k)
      ((build t found text).ancestors n) ((t.above x).filter (isMarked found)) := by
  have hancestors : (build t found text).ancestors n = (t.above x).filterMap (ownerOf? found) := by
    rw [ancestors_build, wayTo, h, List.dropLast_concat, around]
  rw [hancestors]
  induction t.above x with
  | nil => exact .nil
  | cons m above ih =>
    cases hm : ownerOf? found m with
    | none =>
      rw [List.filterMap_cons_none hm, List.filter_cons_of_neg (not_isMarked_iff.2 hm)]
      exact ih
    | some k =>
      have hmarked : isMarked found m := isMarked_iff.2 ⟨k, nodeOf?_of_ownerOf? hm⟩
      rw [List.filterMap_cons_some hm, List.filter_cons_of_pos hmarked]
      exact .cons (ownerOf?_eq_some_iff.1 hm) ih

/-- On the way to a symbol, the node of each is above those of the later ones. -/
theorem pairwise_wayTo : (wayTo t found n).Pairwise fun k m =>
    ∃ x y, nodeOf? found k = some x ∧ nodeOf? found m = some y ∧ x ∈ t.above y := by
  rw [wayTo]
  split
  · exact .nil
  · next y hy =>
    rw [List.pairwise_append]
    refine ⟨?_, List.pairwise_singleton _ n, fun k hk m hm => ?_⟩
    · refine Forest.pairwise_mem_enclosing.filterMap _ fun x y hxy k hk m hm => ?_
      exact ⟨x, y, nodeOf?_of_ownerOf? hk, nodeOf?_of_ownerOf? hm, hxy⟩
    · obtain ⟨x, hxy, hx⟩ := mem_around.1 hk
      exact ⟨x, y, nodeOf?_of_ownerOf? hx, List.mem_singleton.1 hm ▸ hy, hxy⟩

/-- Whether one symbol covers all that another one does. -/
def Covers (T : SymbolTree) (k m : Nat) : Prop :=
  ∃ a b, T.spanOf? k = some a ∧ T.spanOf? m = some b ∧ a.Contains b

/-- Whether one of two symbols is over before the other one starts. -/
def AreApart (T : SymbolTree) (k m : Nat) : Prop :=
  ∃ a b, T.spanOf? k = some a ∧ T.spanOf? m = some b ∧ (a.stop ≤ b.start ∨ b.stop ≤ a.start)

/-- How the symbols that were found at nodes of a syntax tree lie in the file. -/
structure IsNested (T : SymbolTree) (t : SourceTree) (found : List Occurrence) : Prop where
  /-- Around a symbol are the last symbols at the marked nodes strictly above its own, one for
      each of these nodes and in their order. -/
  forall₂_ancestors : ∀ n x, nodeOf? found n = some x →
    List.Forall₂ (fun k m => IsGreatest {j | nodeOf? found j = some m} k)
      (T.ancestors n) ((t.above x).filter (isMarked found))
  /-- Around the root is nothing. -/
  ancestors_zero : T.ancestors 0 = []
  /-- Each of these covers the later ones and the symbol. -/
  pairwise_covers : ∀ n, T.IsSymbol n → (T.ancestors n ++ [n]).Pairwise T.Covers
  /-- Symbols at two nodes of which neither is above the other are apart. -/
  areApart : ∀ m n x y, nodeOf? found m = some x → nodeOf? found n = some y → x ≠ y →
    x ∉ t.above y → y ∉ t.above x → T.AreApart m n

/-- If the spans of nodes are nested, so are those of symbols. -/
theorem isNested_build (t : SourceTree) (found : List Occurrence) (text : String)
    (hlaminar : t.IsLaminar) (hnodes : ∀ o ∈ found, o.node < t.nodes.length) :
    (build t found text).IsNested t found where
  forall₂_ancestors _ _ h := forall₂_ancestors_build h
  ancestors_zero := by
    rw [ancestors_build]
    rfl
  pairwise_covers n hn := by
    obtain ⟨p, hp⟩ := exists_parent? hn
    have hway : (build t found text).ancestors n ++ [n] = wayTo t found n := by
      rw [ancestors_of_parent? hp, wayTo_of_parent? hp]
    rw [hway]
    refine pairwise_wayTo.imp fun {k m} ⟨x, y, hk, hm, hxy⟩ => ?_
    obtain ⟨a, hx, ha⟩ := exists_spanOf?_build hnodes hk
    obtain ⟨b, hy, hb⟩ := exists_spanOf?_build hnodes hm
    exact ⟨a.span, b.span, ha, hb, hlaminar.contains hxy hx hy⟩
  areApart m n x y hm hn hne hxy hyx := by
    obtain ⟨a, hx, ha⟩ := exists_spanOf?_build hnodes hm
    obtain ⟨b, hy, hb⟩ := exists_spanOf?_build hnodes hn
    refine ⟨a.span, b.span, ha, hb, ?_⟩
    rcases Nat.lt_or_gt_of_ne hne with hlt | hlt
    · exact .inl (hlaminar.stop_le_start hlt hxy hx hy)
    · exact .inr (hlaminar.stop_le_start hlt hyx hy hx)

/-- The file `typedef struct p { int x; } P, Q; f() {}`, with the nodes that a symbol is found
    at or below. -/
def pointTree : SourceTree :=
  let node (kind : String) (start stop : Nat) : SourceNode :=
    { kind, field := "", span := { start, stop, first := default, last := default } }
  { root := node "translation_unit" 0 40
    inner := .cons (node "type_definition" 0 33)
      (.cons (node "struct_specifier" 8 27) (.cons (node "field_declaration" 19 25) .nil .nil) .nil)
      (.cons (node "function_definition" 34 40) .nil .nil) }

/-- The field is in the second name of the definition, and that is in the file. -/
theorem isNested_build_point :
    let T := build pointTree typedefSymbols ""
    pointTree.IsLaminar ∧ (∀ o ∈ typedefSymbols, o.node < pointTree.nodes.length) ∧
      T.ancestors 1 = [4, 3] ∧ [4, 3, 1].Pairwise T.Covers ∧ T.AreApart 1 5 := by
  have hlaminar : pointTree.IsLaminar := by decide
  have hnodes : ∀ o ∈ typedefSymbols, o.node < pointTree.nodes.length := by decide
  have hnested := isNested_build pointTree typedefSymbols "" hlaminar hnodes
  have hancestors : (build pointTree typedefSymbols "").ancestors 1 = [4, 3] := by decide
  have hcovers := hnested.pairwise_covers 1 (isSymbol_build.2 (by decide))
  rw [hancestors] at hcovers
  exact ⟨hlaminar, hnodes, hancestors, hcovers,
    hnested.areApart 1 5 3 4 rfl rfl (by decide) (by decide) (by decide)⟩

end SymbolTree

end SymbolPaths
