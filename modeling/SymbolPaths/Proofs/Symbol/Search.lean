import SymbolPaths.Proofs.Symbol.Links

/-!
# Children by search

The parent of a symbol is found by going up from its node. The other way round,
the children of a symbol could be found by a search from its node down, which
stops each branch at the first node of a symbol. Both make the same tree.

* `parentAt_eq_zero_iff`: the way up finds the root if no node on it is marked as
  the node of a symbol;
* `parentAt_eq_iff`: it finds the owner of a node if the node is on it, and no
  marked one before.

Where the search stops is said of the same nodes above (`Forest.mem_topmost_iff`).

A node is the same to the way up and to the search down: marked or not. The way up stops at the
first marked node, the search does not go below one, so both relate a node to the nearest marked
node above it. With several symbols at one node it is the last one that has children, and this is
where the owner of a node comes in.
-/

namespace SymbolPaths.SymbolTree

variable {t : SourceTree} {found : List Occurrence} {text : String} {k m n node p : Nat}

/-- Whether a node is the node of a symbol. -/
def isMarked (found : List Occurrence) (node : Nat) : Bool := found.any (·.node = node)

/-- A node is marked if a symbol is at it. -/
theorem isMarked_iff : isMarked found node ↔ ∃ n, nodeOf? found n = some node := by
  simp only [isMarked, List.any_eq_true, decide_eq_true_eq]
  constructor
  · rintro ⟨o, ho, rfl⟩
    obtain ⟨k, hk⟩ := List.mem_iff_getElem?.1 ho
    exact ⟨k + 1, by simp [nodeOf?, hk]⟩
  · rintro ⟨_ | k, hk⟩
    · simp [nodeOf?] at hk
    · obtain ⟨o, ho, rfl⟩ := Option.map_eq_some_iff.1 hk
      exact ⟨o, List.mem_of_getElem? ho, rfl⟩

/-- A node without a symbol has no owner. -/
theorem not_isMarked_iff : ¬isMarked found node ↔ ownerOf? found node = none := by
  rw [isMarked_iff]
  constructor
  · intro h
    rw [Option.eq_none_iff_forall_ne_some]
    exact fun k hk => h ⟨k, nodeOf?_of_ownerOf? hk⟩
  · rintro h ⟨n, hn⟩
    obtain ⟨k, hk⟩ := exists_ownerOf? hn
    simp [h] at hk

/-- A node without marked nodes above it is on top. -/
theorem parentAt_eq_zero_iff :
    parentAt t found node = 0 ↔ ∀ m ∈ t.above node, ¬isMarked found m := by
  simp only [not_isMarked_iff]
  rw [parentAt_eq, ← List.filterMap_eq_nil_iff]
  constructor
  · intro h
    cases hp : (around t found node).getLast? with
    | none => exact List.getLast?_eq_none_iff.1 hp
    | some p =>
      obtain ⟨m, _, hm, _⟩ := around_of_getLast? hp
      rw [hp, Option.getD_some] at h
      simp [h, nodeOf?] at hm
  · intro h
    rw [around, h]
    rfl

/-- The parent at a node owns the nearest marked node above it. -/
theorem parentAt_eq_iff (hk : ownerOf? found m = some k) :
    parentAt t found node = k ↔
      m ∈ t.above node ∧ ∀ x ∈ t.above node, m < x → ¬isMarked found x := by
  simp only [not_isMarked_iff]
  have hsorted : (t.above node).Pairwise (· < ·) := Forest.pairwise_enclosing
  constructor
  · rintro rfl
    have hp := getLast?_around (t := t) (ne_zero_of_nodeOf? (nodeOf?_of_ownerOf? hk))
    obtain ⟨l₁, m', l₂, habove, hm', hnone⟩ := exists_nearest hp
    obtain rfl : m = m' := eq_of_ownerOf? hk (nodeOf?_of_ownerOf? hm')
    refine ⟨by simp [habove], fun x hx hmx => ?_⟩
    rw [habove] at hx hsorted
    rcases List.mem_append.1 hx with hx | hx
    · exact absurd ((List.pairwise_append.1 hsorted).2.2 x hx m List.mem_cons_self) (by omega)
    · rcases List.mem_cons.1 hx with rfl | hx
      · exact absurd hmx (Nat.lt_irrefl x)
      · exact hnone x hx
  · rintro ⟨hm, hnone⟩
    obtain ⟨l₁, l₂, habove⟩ := List.append_of_mem hm
    rw [habove] at hsorted
    have hafter := (List.pairwise_cons.1 (List.pairwise_append.1 hsorted).2.1).1
    have hfree : l₂.filterMap (ownerOf? found) = [] :=
      List.filterMap_eq_nil_iff.2 fun x hx => hnone x (by simp [habove, hx]) (hafter x hx)
    rw [parentAt_eq, around, habove, List.filterMap_append, List.filterMap_cons_some hk, hfree]
    simp

/-- The search from the root or from the node of a symbol down, stopping each
    branch at the first marked node, finds the nodes of the children. Of the symbols
    at a node the last one has all of them. -/
theorem children_eq_search (t : SourceTree) (found : List Occurrence) (text : String)
    (h : ∀ o ∈ found, o.node < t.nodes.length) :
    (build t found text).children 0 =
        numbered (fun o => o.node ∈ t.forest.topmost (isMarked found) 0) found ∧
      ∀ node, isMarked found node →
        ∃ last, IsGreatest {n | nodeOf? found n = some node} last ∧
          (build t found text).children last = numbered (fun o =>
            o.node ∈ (t.forest.under 0 node).topmost (isMarked found) (node + 1)) found ∧
          ∀ n, nodeOf? found n = some node → n ≠ last → (build t found text).children n = [] := by
  have hmarked : ∀ o ∈ found, isMarked found o.node := fun o ho => by
    simp only [isMarked, List.any_eq_true, decide_eq_true_eq]
    exact ⟨o, ho, rfl⟩
  refine ⟨?_, fun node hnode => ?_⟩
  · rw [children_build]
    refine numbered_congr fun o ho => ?_
    have hsize : o.node < t.forest.size := by
      simpa [SourceTree.nodes, SourceTree.forest, Forest.size, Nat.add_comm] using h o ho
    simp only [decide_eq_decide, parentAt_eq_zero_iff, Forest.mem_topmost_iff, SourceTree.above]
    simp [hmarked o ho, hsize]
  · obtain ⟨n, hn⟩ := isMarked_iff.1 hnode
    obtain ⟨last, hlast⟩ := exists_ownerOf? hn
    have hgreatest := ownerOf?_eq_some_iff.1 hlast
    refine ⟨last, hgreatest, ?_, fun j hj hne => ?_⟩
    · rw [children_build]
      refine numbered_congr fun o ho => ?_
      simp only [decide_eq_decide, parentAt_eq_iff hlast, Forest.mem_topmost_under_iff,
        SourceTree.above]
      simp [hmarked o ho]
    · -- A parent owns its node, and the owner of this one is another symbol.
      rw [List.eq_nil_iff_forall_not_mem]
      intro c hc
      obtain ⟨_, o, _, _, ho⟩ := mem_numbered.1 (children_build ▸ hc)
      obtain rfl : parentAt t found o.node = j := of_decide_eq_true ho
      obtain ⟨_, m, _, _, hm, _⟩ := exists_nearest (getLast?_around (ne_zero_of_nodeOf? hj))
      obtain rfl : m = node := eq_of_ownerOf? hm hj
      exact hne (Option.some.inj (hm.symm.trans hlast))

/-- Of two symbols at one node the last one has the child. -/
theorem children_eq_search_typedef :
    (∀ o ∈ typedefSymbols, o.node < typedefTree.nodes.length) ∧
      (build typedefTree typedefSymbols "").children 0 = [4] ∧
      (build typedefTree typedefSymbols "").children 4 = [2, 3, 5] ∧
      (build typedefTree typedefSymbols "").children 3 = [1] ∧
      (build typedefTree typedefSymbols "").children 2 = [] := by
  have hnodes : ∀ o ∈ typedefSymbols, o.node < typedefTree.nodes.length := by decide
  obtain ⟨htop, hbelow⟩ := children_eq_search typedefTree typedefSymbols "" hnodes
  obtain ⟨file, hfile, hchildren, _⟩ := hbelow 0 (by decide)
  obtain rfl : file = 4 := hfile.unique (ownerOf?_eq_some_iff.1 (by decide))
  obtain ⟨last, hlast, hfield, hearlier⟩ := hbelow 1 (by decide)
  obtain rfl : last = 3 := hlast.unique (ownerOf?_eq_some_iff.1 (by decide))
  exact ⟨hnodes, htop.trans (by decide), hchildren.trans (by decide), hfield.trans (by decide),
    hearlier 2 (by decide) (by decide)⟩

end SymbolPaths.SymbolTree
