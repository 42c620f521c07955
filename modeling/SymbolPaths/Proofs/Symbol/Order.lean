import SymbolPaths.Proofs.Query.Completion
import SymbolPaths.Proofs.Symbol.Traversal

/-!
# Source order

Symbols are numbered as their matches are completed, and so a symbol may well have a greater
number than those in it. Yet no child list is out of order: the nodes of two children of one
symbol do not enclose each other, and of two nodes side by side the first one is over before
the second one starts. With the child lists the whole first walk is in the order of the file.

* `notMem_above_of_parent?`: nodes of children of one symbol lie side by side;
* `pairwise_children`: what this and the order of the matches come to;
* `Shows.pairwise_preorder`: from child lists to the walk;
* `isInOrder_find`: the bundled queries.

All that is known of the order in which symbols are found is that what comes later is at the same
node, behind it, or around it. Between children of one symbol the last is excluded, since the
inner one of the two would then have another parent. For the whole walk two symbols are compared
by the last symbol that their ways have in common: one of them is that symbol, or they are in or
at two of its children.
-/

namespace SymbolPaths.SymbolTree

variable {t : SourceTree} {found : List Occurrence} {text : String} {c k m n p x y : Nat}
  {m' n' x' y' : Nat} {ns : List Nat} {f : Forest Nat}

/-- Whether a symbol comes before another one in the file: its node does, or they have the same
    node and it was found first. -/
def Precedes (found : List Occurrence) (m n : Nat) : Prop :=
  ∃ x y, nodeOf? found m = some x ∧ nodeOf? found n = some y ∧ (x < y ∨ x = y ∧ m < n)

/-- Whether what is found later is at the same node, behind it or around it. -/
def IsCompleted (t : SourceTree) (found : List Occurrence) : Prop :=
  found.Pairwise fun a b => a.node ≤ b.node ∨ b.node ∈ t.above a.node

theorem IsCompleted.node_le_or_mem (h : IsCompleted t found) (hlt : m < n)
    (hm : nodeOf? found m = some x) (hn : nodeOf? found n = some y) : x ≤ y ∨ y ∈ t.above x := by
  cases m with
  | zero => cases hm
  | succ i =>
    obtain ⟨j, rfl⟩ := Nat.exists_eq_add_of_le' (Nat.lt_of_lt_of_le (Nat.succ_pos _) hlt)
    obtain ⟨a, ha, rfl⟩ := Option.map_eq_some_iff.1 hm
    obtain ⟨b, hb, rfl⟩ := Option.map_eq_some_iff.1 hn
    obtain ⟨hi, rfl⟩ := List.getElem?_eq_some_iff.1 ha
    obtain ⟨hj, rfl⟩ := List.getElem?_eq_some_iff.1 hb
    exact List.pairwise_iff_getElem.1 h i j hi hj (Nat.lt_of_succ_lt_succ hlt)

theorem exists_nodeOf? (h : (build t found text).parent? n = some p) :
    ∃ x, nodeOf? found n = some x ∧ parentAt t found x = p := by
  rw [parent?_build] at h
  exact Option.map_eq_some_iff.1 h

/-- The node of a child of a symbol does not enclose that of another child. -/
theorem notMem_above_of_parent? (h : (build t found text).parent? m = some p)
    (h' : (build t found text).parent? n = some p) (hm : nodeOf? found m = some x)
    (hn : nodeOf? found n = some y) : y ∉ t.above x := by
  intro hmem
  obtain ⟨_, hx, rfl⟩ := exists_nodeOf? h
  obtain ⟨_, hy, hparent⟩ := exists_nodeOf? h'
  cases hx.symm.trans hm
  cases hy.symm.trans hn
  obtain ⟨k, hk⟩ := exists_ownerOf? hn
  have haround : around t found x ≠ [] := List.ne_nil_of_mem (mem_around.2 ⟨y, hmem, hk⟩)
  -- The common parent is at the nearest node above the one that has an owner, not above the other.
  have hlast : (around t found x).getLast? = some (parentAt t found x) := by
    rw [parentAt_eq, List.getLast?_eq_getLast_of_ne_nil haround]
    rfl
  obtain ⟨l₁, z, l₂, habove, hz, hnone⟩ := exists_nearest hlast
  have hyz : y ≤ z := by
    have hsorted : (t.above x).Pairwise (· < ·) := Forest.pairwise_enclosing
    rw [habove] at hmem hsorted
    rcases List.mem_append.1 hmem with hy | hy
    · exact Nat.le_of_lt ((List.pairwise_append.1 hsorted).2.2 y hy z List.mem_cons_self)
    · rcases List.mem_cons.1 hy with rfl | hy
      · exact Nat.le_refl y
      · cases (hnone y hy).symm.trans hk
  obtain ⟨z', hz', hnode, _⟩ := around_of_getLast?
    (getLast?_around (hparent.trans_ne (ne_zero_of_nodeOf? (nodeOf?_of_ownerOf? hz))))
  obtain rfl : z = z' := eq_of_ownerOf? hz (hparent ▸ hnode)
  exact Nat.not_le.2 (Forest.lt_of_mem_enclosing hz').2 hyz

/-- The children of a symbol are in source order. -/
theorem pairwise_children (h : IsCompleted t found) :
    ((build t found text).children p).Pairwise (Precedes found) := by
  have hsorted : ((build t found text).children p).Pairwise (· < ·) := by
    rw [children_build]
    exact pairwise_numbered _ _
  refine hsorted.imp_of_mem fun {m n} hm hn hlt => ?_
  have hm' := mem_children_iff.1 hm
  have hn' := mem_children_iff.1 hn
  obtain ⟨x, hx, _⟩ := exists_nodeOf? hm'
  obtain ⟨y, hy, _⟩ := exists_nodeOf? hn'
  have hxy := (h.node_le_or_mem hlt hx hy).resolve_right (notMem_above_of_parent? hm' hn' hx hy)
  exact ⟨x, y, hx, hy, (Nat.lt_or_eq_of_le hxy).imp_right fun heq => ⟨heq, hlt⟩⟩

/-- A symbol on the way to another one owns a node above that one. -/
theorem eq_or_mem_above (h : wayTo t found c <+: wayTo t found m)
    (hc : nodeOf? found c = some x) (hm : nodeOf? found m = some y) :
    c = m ∨ ownerOf? found x = some c ∧ x ∈ t.above y := by
  have hcway : wayTo t found c = around t found x ++ [c] := by rw [wayTo, hc]
  have hmway : wayTo t found m = around t found y ++ [m] := by rw [wayTo, hm]
  rw [hcway, hmway, List.prefix_concat_iff] at h
  rcases h with h | h
  · exact .inl (List.singleton_inj.1 (List.append_inj' h rfl).2)
  · obtain ⟨z, hz, howner⟩ := mem_around.1 (h.subset (List.mem_append_right _ List.mem_cons_self))
    obtain rfl : z = x := eq_of_ownerOf? howner hc
    exact .inr ⟨howner, hz⟩

/-- What is in a symbol comes after it. -/
theorem precedes_of_wayTo (h : wayTo t found n <+: wayTo t found m) (hne : n ≠ m)
    (hn : nodeOf? found n = some x) (hm : nodeOf? found m = some y) : Precedes found n m := by
  obtain ⟨_, hmem⟩ := (eq_or_mem_above h hn hm).resolve_left hne
  exact ⟨x, y, hn, hm, .inl (Forest.lt_of_mem_enclosing hmem).2⟩

/-- What is in or at one child of a symbol comes before what is in or at a later child. -/
theorem precedes_of_siblings (hlt : Precedes found n n')
    (hp : (build t found text).parent? n = some p) (hp' : (build t found text).parent? n' = some p)
    (h : wayTo t found n <+: wayTo t found m) (h' : wayTo t found n' <+: wayTo t found m')
    (hm : nodeOf? found m = some y) (hm' : nodeOf? found m' = some y') : Precedes found m m' := by
  obtain ⟨x, x', hn, hn', horder⟩ := hlt
  have hx' : n' = m' ∨ x' < y' := (eq_or_mem_above h' hn' hm').imp_right
    fun hmem => (Forest.lt_of_mem_enclosing hmem.2).2
  rcases eq_or_mem_above h hn hm with rfl | ⟨howner, hmem⟩
  · -- The first one is the child itself.
    cases hn.symm.trans hm
    rcases hx' with rfl | hx'
    · cases hn'.symm.trans hm'
      exact ⟨y, y', hm, hm', horder⟩
    · exact ⟨y, y', hm, hm', .inl (by omega)⟩
  · -- It is below, and its child owns its node, so that no later symbol has the same.
    have hne : x ≠ x' := by
      rintro rfl
      have := (ownerOf?_eq_some_iff.1 howner).2 hn'
      omega
    have hbelow := Forest.mem_enclosing_iff.1 hmem
    have hside := mt Forest.mem_enclosing_iff.2 (notMem_above_of_parent? hp' hp hn' hn)
    refine ⟨y, y', hm, hm', .inl ?_⟩
    rcases hx' with rfl | hx'
    · cases hn'.symm.trans hm'
      omega
    · omega

/-- What is shown below children has a node. -/
theorem Shows.exists_nodeOf? (h : (build t found text).Shows ns f)
    (hparent : ∀ n ∈ ns, (build t found text).parent? n = some p) (hm : m ∈ f.preorder) :
    ∃ y, nodeOf? found m = some y := by
  obtain ⟨n, hn, hway⟩ := h.exists_wayTo hm
  rw [wayTo_of_parent? (hparent n hn)] at hway
  have hne : wayTo t found m ≠ [] := fun hnil => by simp [hnil] at hway
  have hsymbol : (build t found text).IsSymbol m := wayTo_ne_nil_iff.1 hne
  obtain ⟨q, hq⟩ := exists_parent? hsymbol
  obtain ⟨y, hy, _⟩ := SymbolTree.exists_nodeOf? hq
  exact ⟨y, hy⟩

/-- If all child lists are in source order, the symbols shown are. -/
theorem Shows.pairwise_preorder (hdone : IsCompleted t found) (h : (build t found text).Shows ns f)
    (hns : ns.Pairwise (Precedes found))
    (hparent : ∀ n ∈ ns, (build t found text).parent? n = some p) :
    f.preorder.Pairwise (Precedes found) := by
  induction h generalizing p with
  | nil => exact .nil
  | @cons n ns below after hbelow hafter ihb iha =>
    obtain ⟨hfirst, hns⟩ := List.pairwise_cons.1 hns
    have hn := hparent n List.mem_cons_self
    have hparents : ∀ c ∈ ns, (build t found text).parent? c = some p :=
      fun c hc => hparent c (List.mem_cons_of_mem _ hc)
    obtain ⟨x, hx, _⟩ := SymbolTree.exists_nodeOf? hn
    -- Whatever has `n` on its way comes before whatever has one of `ns` on it.
    have hside : ∀ m m', m' ∈ after.preorder → wayTo t found n <+: wayTo t found m →
        (∃ y, nodeOf? found m = some y) → Precedes found m m' := by
      intro m m' hm' hway ⟨y, hy⟩
      obtain ⟨n', hn', hway'⟩ := hafter.exists_wayTo hm'
      obtain ⟨y', hy'⟩ := hafter.exists_nodeOf? hparents hm'
      exact precedes_of_siblings (hfirst n' hn') hn (hparents n' hn') hway hway' hy hy'
    have hchildren : ∀ c ∈ (build t found text).children n,
        (build t found text).parent? c = some n := fun _ => mem_children_iff.1
    rw [Forest.preorder, List.pairwise_cons, List.pairwise_append]
    refine ⟨fun m hm => ?_, ihb (pairwise_children hdone) hchildren, iha hns hparents,
      fun m hm m' hm' => ?_⟩
    · rcases List.mem_append.1 hm with hm | hm
      · obtain ⟨hway, hne⟩ := hbelow.wayTo_and_ne hm
        obtain ⟨y, hy⟩ := hbelow.exists_nodeOf? hchildren hm
        exact precedes_of_wayTo hway hne hx hy
      · exact hside n m hm (List.prefix_refl _) ⟨x, hx⟩
    · exact hside m m' hm' (hbelow.wayTo_and_ne hm).1 (hbelow.exists_nodeOf? hchildren hm)

/-- The lists of symbols of a tree in the order of the file. -/
structure IsInOrder (T : SymbolTree) (found : List Occurrence) : Prop where
  /-- The first walk is in the order of the file. -/
  depthFirst : T.depthFirst.Pairwise (Precedes found)
  /-- So is every list of children. -/
  children : ∀ p, (T.children p).Pairwise (Precedes found)

theorem isInOrder_find (language : Language) (h : language ∈ Language.taggable) :
    ∃ q, language.query = some q ∧ ∀ (t : SourceTree) (file : Bytes) (text : String),
      (build t (Occurrence.find q t file) text).IsInOrder (Occurrence.find q t file) := by
  obtain ⟨hall, htaggable⟩ := List.mem_filter.1 h
  obtain ⟨q, hq⟩ := Option.isSome_iff_exists.1 htaggable
  refine ⟨q, hq, fun t file text => ?_⟩
  have hdone : IsCompleted t (Occurrence.find q t file) :=
    Occurrence.pairwise_find (Language.capturesRoot hall hq)
  refine ⟨?_, fun p => pairwise_children hdone⟩
  rw [depthFirst_build]
  exact shows_outline.pairwise_preorder hdone (pairwise_children hdone) fun _ => mem_children_iff.1

/-- A file with a definition (node 1) of two names (nodes 5 and 6) of a structure (node 2). -/
def structTree : SourceTree :=
  let node (kind field : String) : SourceNode := { kind, field, span := default }
  { root := node "translation_unit" ""
    inner := Forest.tree (node "type_definition" "") [
      Forest.tree (node "struct_specifier" "type") [
        Forest.tree (node "type_identifier" "name") [],
        Forest.tree (node "field_declaration_list" "body") []],
      Forest.tree (node "type_identifier" "declarator") [],
      Forest.tree (node "type_identifier" "declarator") []] }

/-- The structure is complete before its definition is, which has two matches. -/
theorem isInOrder_find_structTree :
    let found := Occurrence.find Query.c structTree []
    (⟨"c", [".c", ".h"], some Query.c⟩ : Language) ∈ Language.taggable ∧
      found.map (·.node) = [2, 1, 1] ∧ (build structTree found "").depthFirst = [2, 3, 1] ∧
      (build structTree found "").IsInOrder found := by
  have htaggable : (⟨"c", [".c", ".h"], some Query.c⟩ : Language) ∈ Language.taggable := by decide
  obtain ⟨q, hq, horder⟩ := isInOrder_find _ htaggable
  obtain rfl := Option.some.inj hq
  have hmatches : Query.c.allMatches structTree =
      [⟨4, 2, 2, [2, 3]⟩, ⟨5, 1, 5, [1, 5]⟩, ⟨6, 1, 5, [1, 6]⟩] :=
    Query.allMatches_eq (by decide) (by decide)
  have hfound : Occurrence.find Query.c structTree [] = [⟨"", 2⟩, ⟨"", 1⟩, ⟨"", 1⟩] := by
    rw [Occurrence.find, hmatches]
    decide +kernel
  refine ⟨htaggable, ?_, ?_, horder structTree [] ""⟩
  · rw [hfound]
    rfl
  · rw [hfound]
    decide

end SymbolPaths.SymbolTree
