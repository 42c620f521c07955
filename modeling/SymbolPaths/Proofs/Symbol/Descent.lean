import SymbolPaths.Proofs.Symbol.Path

/-!
# Going down by tags

A path can be looked up in the index, or followed from the root down, one tag
after the other. The index has the last symbol with a path, whatever is on the
way to it. The way down takes the last child with a tag at every step and never
turns back: where two symbols side by side have one tag, what is below the
first of them is out of its reach.

* `descend?_eq_some_iff`: the way down leads to the symbol with the path on whose
  way every symbol is the last with its tag (`IsLastWithTag`);
* `isLastWithTag_of_at?`: the index leads to a symbol of which this is sure only for
  the end of the way.

Both lookups are characterised by the symbol they find. For the index that is the last symbol with
a path. For the way down it is a symbol with the path on whose way each symbol is the last below
its parent with its tag, by induction on the tags from the last one. The two agree if the symbol
of the index is such a one, and a file in which a class is opened twice shows that it need not be.
-/

namespace SymbolPaths.SymbolTree

variable {t : SourceTree} {found : List Occurrence} {text : String} {m n p : Nat}

/-- Whether a symbol is the last one below its parent with its tag. -/
def IsLastWithTag (t : SymbolTree) (n : Nat) : Prop :=
  ∀ k, t.parent? k = t.parent? n → t.tag k = t.tag n → k ≤ n

theorem descendFrom?_append (t : SymbolTree) (n : Nat) (tags rest : List String) :
    t.descendFrom? n (tags ++ rest) = (t.descendFrom? n tags).bind (t.descendFrom? · rest) := by
  induction tags generalizing n with
  | nil => rfl
  | cons tag tags ih =>
    simp only [List.cons_append, descendFrom?]
    split
    · rfl
    · exact ih _

/-- One step down leads to the last child with the tag. -/
theorem descendFrom?_singleton_eq_some_iff {tag : String} :
    (build t found text).descendFrom? p [tag] = some m ↔
      IsGreatest {c | (build t found text).parent? c = some p ∧
        (build t found text).tag c = tag} m := by
  have h : (build t found text).descendFrom? p [tag] =
      (((build t found text).children p).filter
        ((build t found text).tag · == tag)).getLast? := by
    rw [descendFrom?, List.getLast?_filter]
    cases ((build t found text).children p).reverse.find? ((build t found text).tag · == tag) <;>
      rfl
  have hsorted : ((build t found text).children p).Pairwise (· < ·) := by
    rw [children_build]
    exact pairwise_numbered _ _
  rw [h, getLast?_eq_some_iff_isGreatest (hsorted.filter _)]
  simp only [List.mem_filter, mem_children_iff, beq_iff_eq]

/-- From the root down, tags lead to the symbol with these on its path that is
    reached by the last child with a tag at every step. -/
theorem descendFrom?_zero_eq_some_iff {tags : List String} :
    (build t found text).descendFrom? 0 tags = some m ↔
      m ≤ found.length ∧ (build t found text).pathOf m = ⟨tags⟩ ∧
        ∀ a ∈ wayTo t found m, (build t found text).IsLastWithTag a := by
  -- The descent is extended at its end, as a path is by the last tag of a symbol below.
  induction tags using List.reverseRecOn generalizing m with
  | nil =>
    rw [descendFrom?, Option.some.injEq]
    constructor
    · rintro rfl
      exact ⟨Nat.zero_le _, rfl, by simp [wayTo, nodeOf?]⟩
    · rintro ⟨hm, hpath, _⟩
      by_contra hne
      exact tags_pathOf_ne_nil (isSymbol_build.2 ⟨by omega, hm⟩) (congrArg TagPath.tags hpath)
  | append_singleton tags tag ih =>
    rw [descendFrom?_append, Option.bind_eq_some_iff]
    simp only [ih, descendFrom?_singleton_eq_some_iff]
    constructor
    · rintro ⟨q, ⟨_, hpath, hway⟩, ⟨hparent, rfl⟩, hlast⟩
      have hm := parent?_isSome.1 (Option.isSome_of_eq_some hparent)
      refine ⟨(isSymbol_build.1 hm).2, by rw [pathOf_of_parent? hparent, hpath]; rfl, ?_⟩
      rw [wayTo_of_parent? hparent]
      simp only [List.mem_append, List.mem_singleton]
      rintro a (ha | rfl)
      · exact hway a ha
      · exact fun k hk htag => hlast ⟨hk.trans hparent, htag⟩
    · rintro ⟨hm, hpath, hway⟩
      obtain ⟨q, hparent⟩ : ∃ q, (build t found text).parent? m = some q := by
        refine exists_parent? (isSymbol_build.2 ⟨Nat.pos_of_ne_zero ?_, hm⟩)
        rintro rfl
        exact List.append_ne_nil_of_right_ne_nil tags (List.cons_ne_nil tag [])
          (congrArg TagPath.tags hpath).symm
      rw [pathOf_of_parent? hparent, TagPath.child, TagPath.mk.injEq] at hpath
      obtain ⟨htags, htag⟩ := List.append_inj' hpath rfl
      rw [wayTo_of_parent? hparent] at hway
      simp only [List.mem_append, List.mem_singleton] at hway
      refine ⟨q, ⟨le_of_parent? hparent, by rw [← htags], fun a ha => hway a (.inl ha)⟩,
        ⟨hparent, List.singleton_inj.1 htag⟩, fun k hk => ?_⟩
      exact hway m (.inr rfl) k (hk.1.trans hparent.symm)
        (hk.2.trans (List.singleton_inj.1 htag).symm)

theorem descend?_eq_some_iff {path : TagPath} :
    (build t found text).descend? path = some m ↔
      path.isAddressable ∧ (build t found text).IsSymbol m ∧
        (build t found text).pathOf m = path ∧
          ∀ a ∈ wayTo t found m, (build t found text).IsLastWithTag a := by
  rw [descend?]
  split
  · next haddr =>
    rw [descendFrom?_zero_eq_some_iff, isSymbol_build]
    constructor
    · rintro ⟨hm, hpath, hway⟩
      refine ⟨haddr, ⟨Nat.pos_of_ne_zero ?_, hm⟩, hpath, hway⟩
      rintro rfl
      have hnil : path.tags = [] := (congrArg TagPath.tags hpath).symm
      simp [TagPath.isAddressable, hnil] at haddr
    · rintro ⟨_, ⟨_, hm⟩, hpath, hway⟩
      exact ⟨hm, hpath, hway⟩
  · next haddr => simp [haddr]

/-- What the index leads to is the last below its parent with its tag. -/
theorem isLastWithTag_of_at? {path : TagPath} (h : (build t found text).at? path = some m) :
    (build t found text).IsLastWithTag m := by
  obtain ⟨⟨hm, haddr, htext⟩, hlast⟩ := at?_eq_some_iff.1 h
  obtain ⟨q, hq⟩ := exists_parent? hm
  intro k hk htag
  have hpath : (build t found text).pathOf k = (build t found text).pathOf m := by
    rw [pathOf_of_parent? hq, pathOf_of_parent? (hk.trans hq), htag]
  have hsymbol := parent?_isSome.1 (Option.isSome_of_eq_some (hk.trans hq))
  exact hlast ⟨hsymbol, hpath ▸ haddr, hpath ▸ htext⟩

/-- The way down leads where the index does, if that is a symbol with the path that
    is looked up and every symbol around it is the last below its parent with its
    tag. -/
theorem at?_eq_descend?_iff (t : SourceTree) (found : List Occurrence) (text : String)
    (path : TagPath) :
    (build t found text).at? path = (build t found text).descend? path ↔
      ∀ m, (build t found text).at? path = some m →
        (build t found text).pathOf m = path ∧
          ∀ a ∈ (build t found text).ancestors m, (build t found text).IsLastWithTag a := by
  simp only [ancestors_build]
  constructor
  · intro h m hm
    obtain ⟨_, _, hpath, hway⟩ := descend?_eq_some_iff.1 (h ▸ hm)
    exact ⟨hpath, fun a ha => hway a (List.dropLast_subset _ ha)⟩
  · intro h
    cases hat : (build t found text).at? path with
    | none =>
      -- What the way down finds, the index has too.
      rw [eq_comm, Option.eq_none_iff_forall_ne_some]
      intro m hm
      obtain ⟨haddr, hsymbol, hpath, _⟩ := descend?_eq_some_iff.1 hm
      obtain ⟨k, hk⟩ := exists_at? hsymbol (hpath ▸ haddr) (congrArg TagPath.toText hpath)
      exact absurd (hat.symm.trans hk) nofun
    | some m =>
      obtain ⟨hpath, hanc⟩ := h m hat
      obtain ⟨hsymbol, haddr, _⟩ := (at?_eq_some_iff.1 hat).1
      obtain ⟨q, hq⟩ := exists_parent? hsymbol
      rw [eq_comm, descend?_eq_some_iff]
      refine ⟨hpath ▸ haddr, hsymbol, hpath, ?_⟩
      rw [wayTo_of_parent? hq] at hanc ⊢
      rw [List.dropLast_concat] at hanc
      simp only [List.mem_append, List.mem_singleton]
      rintro a (ha | rfl)
      · exact hanc a ha
      · exact isLastWithTag_of_at? hat

/-- A file with two classes (nodes 1 and 3), each with a function. -/
def reopenedTree : SourceTree :=
  let node (kind : String) : SourceNode := { kind, field := "", span := default }
  let block : Forest SourceNode → Forest SourceNode :=
    .cons (node "class_definition") (.cons (node "function_definition") .nil .nil)
  { root := node "module", inner := block (block .nil) }

/-- The symbols in that file, where the classes have one name. -/
def reopenedSymbols : List Occurrence := [⟨"T", 1⟩, ⟨"a", 2⟩, ⟨"T", 3⟩, ⟨"b", 4⟩]

/-- What is in the first of two classes of one name has a path that the way down
    cannot follow. -/
theorem descend?_ne_at?_of_reopened :
    (build reopenedTree reopenedSymbols "").at? (TagPath.parse "T>a") = some 2 ∧
      (build reopenedTree reopenedSymbols "").descend? (TagPath.parse "T>a") = none := by
  decide

end SymbolPaths.SymbolTree
