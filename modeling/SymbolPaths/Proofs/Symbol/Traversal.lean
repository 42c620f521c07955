import SymbolPaths.Proofs.Symbol.Path
import SymbolPaths.Symbol.Outline

/-!
# Walks through symbol trees

Both walks through a tree are loops over a list of symbols that wait for their turn: the next
one is taken from its front, and its children are put before the others or behind them. What
such a loop comes to is said without a bound on its rounds (`Unstacks`, `Unqueues`), so that a
list is the whole walk only if the loop ends.

* `Shows`: what a forest with each symbol over its children is; the outline is the one of
  the whole tree (`shows_outline`), and the first walk is its preorder (`depthFirst_build`);
* `level`: the symbols with so many symbols around them, level by level; the second walk is
  one level after the other (`breadthFirst_build`);
* `isWalked_build`: both walks meet every symbol once, and the root never (`IsWalked`).

That a walk meets every symbol once has three parts. Every symbol is met, since the parents lead
from it to the root and each of them is met. None is met twice, since two children of one symbol
have no symbol below both of them, by their ways. And the loops come to an end before their fuel
does, since they have met each symbol once by then.
-/

namespace SymbolPaths.SymbolTree

variable {t : SourceTree} {found : List Occurrence} {text : String} {k m n p fuel : Nat}
  {ns stack queue out : List Nat} {f : Forest Nat} {T : SymbolTree}

/-! ### Loops without a bound -/

/-- What a loop lists that puts the children of a symbol before the others. -/
inductive Unstacks (T : SymbolTree) : List Nat → List Nat → Prop
  /-- With an empty stack the loop is over. -/
  | nil : Unstacks T [] []
  /-- The symbol on top is listed, and its children are put on the stack. -/
  | cons {n : Nat} {stack out : List Nat} :
      Unstacks T (T.children n ++ stack) out → Unstacks T (n :: stack) (n :: out)

/-- What a loop lists that puts the children of a symbol behind the others. -/
inductive Unqueues (T : SymbolTree) : List Nat → List Nat → Prop
  /-- With an empty queue the loop is over. -/
  | nil : Unqueues T [] []
  /-- The first symbol is listed, and its children are put at the end. -/
  | cons {n : Nat} {queue out : List Nat} :
      Unqueues T (queue ++ T.children n) out → Unqueues T (n :: queue) (n :: out)

/-- A bound that lets the loop end does not matter. -/
theorem Unstacks.unstack_eq (h : T.Unstacks stack out) (hfuel : out.length ≤ fuel) :
    T.unstack fuel stack = out := by
  induction h generalizing fuel with
  | nil => cases fuel <;> rfl
  | cons _ ih =>
    obtain ⟨fuel, rfl⟩ := Nat.exists_eq_add_of_le' (Nat.lt_of_lt_of_le (Nat.succ_pos _) hfuel)
    rw [unstack, ih (Nat.le_of_succ_le_succ hfuel)]

/-- A queue with enough fuel gives out what it should. -/
theorem Unqueues.unqueue_eq (h : T.Unqueues queue out) (hfuel : out.length ≤ fuel) :
    T.unqueue fuel queue = out := by
  induction h generalizing fuel with
  | nil => cases fuel <;> rfl
  | cons _ ih =>
    obtain ⟨fuel, rfl⟩ := Nat.exists_eq_add_of_le' (Nat.lt_of_lt_of_le (Nat.succ_pos _) hfuel)
    rw [unqueue, ih (Nat.le_of_succ_le_succ hfuel)]

/-! ### The outline -/

/-- Whether a forest shows the symbols of a list, each over its children. -/
inductive Shows (T : SymbolTree) : List Nat → Forest Nat → Prop
  /-- No symbols are shown by the empty forest. -/
  | nil : Shows T [] .nil
  /-- A symbol is shown over its children, and the others beside it. -/
  | cons {n : Nat} {ns : List Nat} {below after : Forest Nat} :
      Shows T (T.children n) below → Shows T ns after → Shows T (n :: ns) (.cons n below after)

/-- The symbols on a stack are listed in preorder, before what is under them. -/
theorem Shows.unstacks (h : T.Shows ns f) (hrest : T.Unstacks stack out) :
    T.Unstacks (ns ++ stack) (f.preorder ++ out) := by
  induction h generalizing stack out with
  | nil => exact hrest
  | cons _ _ ihb iha =>
    rw [Forest.preorder, List.cons_append, List.cons_append, List.append_assoc]
    exact .cons (ihb (iha hrest))

/-- The symbols that are shown first come in the walk. -/
theorem Shows.subset_preorder (h : T.Shows ns f) : ns ⊆ f.preorder := by
  induction h with
  | nil => exact List.Subset.refl _
  | cons _ _ _ iha =>
    rw [Forest.preorder]
    exact List.cons_subset_cons _ (List.subset_append_of_subset_right _ iha)

/-- Whatever is shown is shown with its children. -/
theorem Shows.children_subset (h : T.Shows ns f) (hp : p ∈ f.preorder) :
    T.children p ⊆ f.preorder := by
  induction h with
  | nil => cases hp
  | @cons n ns below after hbelow _ ihb iha =>
    rw [Forest.preorder] at hp ⊢
    refine List.subset_cons_of_subset n ?_
    rcases List.mem_cons.1 hp with rfl | hp
    · exact List.subset_append_of_subset_left _ hbelow.subset_preorder
    · rcases List.mem_append.1 hp with hp | hp
      · exact List.subset_append_of_subset_left _ (ihb hp)
      · exact List.subset_append_of_subset_right _ (iha hp)

/-- With a depth that no way exceeds, the outline is complete. -/
theorem shows_outlineOf {depth : Nat}
    (h : ∀ n ∈ ns, found.length < depth + (wayTo t found n).length) :
    (build t found text).Shows ns ((build t found text).outlineOf depth ns) := by
  induction depth generalizing ns with
  | zero =>
    cases ns with
    | nil => exact .nil
    | cons n ns =>
      have := h n List.mem_cons_self
      have : (wayTo t found n).length ≤ found.length := length_wayTo_le
      omega
  | succ depth ih =>
    rw [outlineOf]
    induction ns with
    | nil => exact .nil
    | cons n ns ihns =>
      refine .cons (ih fun c hc => ?_) (ihns fun c hc => h c (List.mem_cons_of_mem _ hc))
      rw [wayTo_of_parent? (mem_children_iff.1 hc), List.length_append, List.length_singleton]
      have := h n List.mem_cons_self
      omega

/-- The outline of a tree shows it from the root on. -/
theorem shows_outline : (build t found text).Shows ((build t found text).children 0)
    (build t found text).outline := by
  refine shows_outlineOf fun n _ => ?_
  rw [size_symbols_build]
  omega

/-- What is shown below a symbol of the list has that symbol on its way. -/
theorem Shows.exists_wayTo (h : (build t found text).Shows ns f) (hm : m ∈ f.preorder) :
    ∃ n ∈ ns, wayTo t found n <+: wayTo t found m := by
  induction h with
  | nil => cases hm
  | @cons n ns below after _ _ ihb iha =>
    rw [Forest.preorder, List.mem_cons, List.mem_append] at hm
    rcases hm with rfl | hm | hm
    · exact ⟨m, List.mem_cons_self, List.prefix_refl _⟩
    · obtain ⟨c, hc, hway⟩ := ihb hm
      refine ⟨n, List.mem_cons_self, .trans ?_ hway⟩
      rw [wayTo_of_parent? (mem_children_iff.1 hc)]
      exact List.prefix_append _ _
    · obtain ⟨c, hc, hway⟩ := iha hm
      exact ⟨c, List.mem_cons_of_mem _ hc, hway⟩

/-- What is shown below a symbol is another one with a longer way. -/
theorem Shows.wayTo_and_ne (h : (build t found text).Shows ((build t found text).children n) f)
    (hm : m ∈ f.preorder) : wayTo t found n <+: wayTo t found m ∧ n ≠ m := by
  obtain ⟨c, hc, hway⟩ := h.exists_wayTo hm
  rw [wayTo_of_parent? (mem_children_iff.1 hc)] at hway
  refine ⟨.trans (List.prefix_append _ _) hway, ?_⟩
  rintro rfl
  simpa using hway.length_le

/-- Only symbols have something on their way. -/
theorem wayTo_ne_nil_iff : wayTo t found n ≠ [] ↔ (build t found text).IsSymbol n := by
  rw [← parent?_isSome]
  cases hp : (build t found text).parent? n with
  | none => simp [wayTo_eq_nil hp]
  | some p => simp [wayTo_of_parent? hp]

/-- A parent is the root or a symbol. -/
theorem eq_zero_or_isSymbol (h : (build t found text).parent? n = some p) :
    p = 0 ∨ (build t found text).IsSymbol p := by
  rw [isSymbol_build, Nat.pos_iff_ne_zero]
  exact (Decidable.em (p = 0)).imp_right fun hne => ⟨hne, le_of_parent? h⟩

/-- Every symbol is shown. -/
theorem mem_preorder_outline_iff :
    n ∈ (build t found text).outline.preorder ↔ (build t found text).IsSymbol n := by
  constructor
  · intro hn
    obtain ⟨c, hc, hway⟩ := shows_outline.exists_wayTo hn
    refine wayTo_ne_nil_iff.1 fun hnil => ?_
    rw [hnil, List.prefix_nil, wayTo_of_parent? (mem_children_iff.1 hc)] at hway
    exact List.append_ne_nil_of_right_ne_nil _ (List.cons_ne_nil c []) hway
  · intro hn
    induction hl : (wayTo t found n).length generalizing n with
    | zero => exact absurd (List.eq_nil_of_length_eq_zero hl) (wayTo_ne_nil_iff.2 hn)
    | succ l ih =>
      obtain ⟨p, hp⟩ := exists_parent? hn
      rcases eq_zero_or_isSymbol hp with rfl | hsymbol
      · exact shows_outline.subset_preorder (mem_children_iff.2 hp)
      · rw [wayTo_of_parent? hp, List.length_append] at hl
        exact shows_outline.children_subset (ih hsymbol (Nat.succ.inj hl)) (mem_children_iff.2 hp)

/-- No way leads through two children of one symbol. -/
theorem eq_of_siblings {n' : Nat} (hn : (build t found text).parent? n = some p)
    (hn' : (build t found text).parent? n' = some p)
    (h : wayTo t found n <+: wayTo t found m) (h' : wayTo t found n' <+: wayTo t found m) :
    n = n' := by
  rw [wayTo_of_parent? hn] at h
  rw [wayTo_of_parent? hn'] at h'
  have hway := List.prefix_of_prefix_length_le h h' (by simp)
  have heq := hway.eq_of_length (by simp)
  exact List.singleton_inj.1 (List.append_cancel_left heq)

/-- No symbol has a child twice. -/
theorem nodup_children : ((build t found text).children n).Nodup := by
  rw [children_build]
  exact (pairwise_numbered _ _).imp Nat.ne_of_lt

/-- Children of one symbol are shown with nothing twice. -/
theorem Shows.nodup_preorder (h : (build t found text).Shows ns f) (hns : ns.Nodup)
    (hparent : ∀ n ∈ ns, (build t found text).parent? n = some p) : f.preorder.Nodup := by
  induction h generalizing p with
  | nil => exact .nil
  | @cons n ns below after hbelow hafter ihb iha =>
    obtain ⟨hnot, hns⟩ := List.nodup_cons.1 hns
    have hn := hparent n List.mem_cons_self
    have hparents : ∀ c ∈ ns, (build t found text).parent? c = some p :=
      fun c hc => hparent c (List.mem_cons_of_mem _ hc)
    -- The ways to what is after `n` lead through the other children.
    have hnone : ∀ m ∈ after.preorder, ¬wayTo t found n <+: wayTo t found m := by
      intro m hm hway
      obtain ⟨c, hc, hway'⟩ := hafter.exists_wayTo hm
      exact hnot (eq_of_siblings hn (hparents c hc) hway hway' ▸ hc)
    rw [Forest.preorder, List.nodup_cons, List.nodup_append', List.mem_append]
    refine ⟨?_, ihb nodup_children fun c hc => mem_children_iff.1 hc, iha hns hparents, ?_⟩
    · rintro (hm | hm)
      · exact (hbelow.wayTo_and_ne hm).2 rfl
      · exact hnone n hm (List.prefix_refl _)
    · intro m hm hm'
      exact hnone m hm' (hbelow.wayTo_and_ne hm).1

/-! ### Levels -/

/-- The symbols on the `k`-th level: those on top, and then the children of one level after
    the other. -/
def level (T : SymbolTree) : Nat → List Nat
  | 0 => T.children 0
  | k + 1 => (T.level k).flatMap T.children

/-- The symbols of a queue are listed one after the other, and their children come behind
    what is there already. -/
theorem Unqueues.append (h : T.Unqueues (queue ++ ns.flatMap T.children) out) :
    T.Unqueues (ns ++ queue) (ns ++ out) := by
  induction ns generalizing queue with
  | nil => rwa [List.flatMap_nil, List.append_nil] at h
  | cons n ns ih =>
    rw [List.flatMap_cons, ← List.append_assoc] at h
    have hqueue := ih h
    rw [← List.append_assoc] at hqueue
    exact .cons hqueue

/-- If a level is empty, those before it are listed one after the other. -/
theorem unqueues_levels {count : Nat} (h : T.level (k + count) = []) :
    T.Unqueues (T.level k) ((List.range' k count).flatMap T.level) := by
  induction count generalizing k with
  | zero =>
    rw [Nat.add_zero] at h
    rw [h]
    exact .nil
  | succ count ih =>
    rw [List.range'_succ, List.flatMap_cons]
    have hrest : T.Unqueues ([] ++ (T.level k).flatMap T.children)
        ((List.range' (k + 1) count).flatMap T.level) :=
      ih (k := k + 1) (by rwa [Nat.add_assoc, Nat.add_comm 1])
    have hqueue := hrest.append
    rwa [List.append_nil] at hqueue

/-- The level of a symbol is how many symbols are on the way to it. -/
theorem mem_level_iff : n ∈ (build t found text).level k ↔
    (build t found text).IsSymbol n ∧ (wayTo t found n).length = k + 1 := by
  -- A symbol is one level below its parent, and its way is one symbol longer.
  induction k generalizing n with
  | zero =>
    rw [level, mem_children_iff]
    constructor
    · intro hn
      refine ⟨parent?_isSome.1 (Option.isSome_of_eq_some hn), ?_⟩
      rw [wayTo_of_parent? hn]
      rfl
    · rintro ⟨hn, hlength⟩
      obtain ⟨p, hp⟩ := exists_parent? hn
      rw [wayTo_of_parent? hp, List.length_append] at hlength
      have hway := List.eq_nil_of_length_eq_zero (Nat.succ.inj hlength)
      rcases eq_zero_or_isSymbol hp with rfl | hsymbol
      · exact hp
      · exact absurd hway (wayTo_ne_nil_iff.2 hsymbol)
  | succ k ih =>
    simp only [level, List.mem_flatMap, ih, mem_children_iff]
    constructor
    · rintro ⟨p, ⟨_, hlength⟩, hp⟩
      refine ⟨parent?_isSome.1 (Option.isSome_of_eq_some hp), ?_⟩
      rw [wayTo_of_parent? hp, List.length_append, hlength]
      rfl
    · rintro ⟨hn, hlength⟩
      obtain ⟨p, hp⟩ := exists_parent? hn
      rw [wayTo_of_parent? hp, List.length_append] at hlength
      have hway : (wayTo t found p).length = k + 1 := Nat.succ.inj hlength
      refine ⟨p, ⟨wayTo_ne_nil_iff.1 fun hnil => ?_, hway⟩, hp⟩
      rw [hnil] at hway
      cases hway

/-- There are no more levels than symbols. -/
theorem level_eq_nil (hk : found.length ≤ k) : (build t found text).level k = [] := by
  rw [List.eq_nil_iff_forall_not_mem]
  intro n hn
  have := (mem_level_iff.1 hn).2
  have : (wayTo t found n).length ≤ found.length := length_wayTo_le
  omega

/-- A symbol is on its level once. -/
theorem nodup_level : ((build t found text).level k).Nodup := by
  induction k with
  | zero => exact nodup_children
  | succ k ih =>
    rw [level, List.nodup_flatMap]
    refine ⟨fun n _ => nodup_children, ih.imp fun hne c hc hc' => hne ?_⟩
    exact Option.some.inj ((mem_children_iff.1 hc).symm.trans (mem_children_iff.1 hc'))

/-! ### The walks of a built tree -/

/-- No symbol is on two levels. -/
theorem nodup_levels : ((List.range found.length).flatMap (build t found text).level).Nodup := by
  rw [List.nodup_flatMap]
  refine ⟨fun k _ => nodup_level, List.nodup_range.imp fun hne n hn hn' => hne ?_⟩
  exact Nat.succ.inj ((mem_level_iff.1 hn).2.symm.trans (mem_level_iff.1 hn').2)

/-- All symbols are on some level. -/
theorem mem_levels_iff : n ∈ (List.range found.length).flatMap (build t found text).level ↔
    (build t found text).IsSymbol n := by
  simp only [List.mem_flatMap, List.mem_range, mem_level_iff]
  refine ⟨fun ⟨_, _, hn, _⟩ => hn, fun hn => ?_⟩
  obtain ⟨p, hp⟩ := exists_parent? hn
  have hlength : (wayTo t found n).length ≤ found.length := length_wayTo_le
  rw [wayTo_of_parent? hp, List.length_append, List.length_singleton] at hlength ⊢
  exact ⟨_, hlength, hn, rfl⟩

theorem nodup_preorder_outline : (build t found text).outline.preorder.Nodup :=
  shows_outline.nodup_preorder nodup_children fun _ => mem_children_iff.1

/-- A list of all symbols without repetitions is as long as there are symbols. -/
theorem length_eq_of_mem_iff {l : List Nat} (hnodup : l.Nodup)
    (hmem : ∀ n, n ∈ l ↔ (build t found text).IsSymbol n) : l.length = found.length := by
  have hperm : l.Perm (List.range' 1 found.length) := by
    rw [List.perm_ext_iff_of_nodup hnodup List.nodup_range']
    intro n
    rw [hmem, isSymbol_build, List.mem_range'_1]
    omega
  rw [hperm.length_eq, List.length_range']

theorem unstacks_build : (build t found text).Unstacks ((build t found text).children 0)
    (build t found text).outline.preorder := by
  simpa using shows_outline.unstacks (.nil : (build t found text).Unstacks [] [])

/-- The walk in depth is that over the outline. -/
theorem depthFirst_build :
    (build t found text).depthFirst = (build t found text).outline.preorder := by
  refine unstacks_build.unstack_eq ?_
  rw [length_eq_of_mem_iff nodup_preorder_outline fun _ => mem_preorder_outline_iff,
    size_symbols_build]
  exact Nat.le_succ _

/-- A queue that begins with the symbols at the top gives out one level after the other. -/
theorem unqueues_build : (build t found text).Unqueues ((build t found text).children 0)
    ((List.range found.length).flatMap (build t found text).level) := by
  rw [List.range_eq_range']
  exact unqueues_levels (k := 0) (level_eq_nil (by omega))

/-- The walk in breadth is one level after the other. -/
theorem breadthFirst_build : (build t found text).breadthFirst =
    (List.range found.length).flatMap (build t found text).level := by
  refine unqueues_build.unqueue_eq ?_
  rw [length_eq_of_mem_iff nodup_levels fun _ => mem_levels_iff, size_symbols_build]
  exact Nat.le_succ _

/-- The two walks through a tree of `count` symbols. -/
structure IsWalked (T : SymbolTree) (count : Nat) : Prop where
  /-- There are as many symbols as matches. -/
  size_eq : T.size = count
  /-- Both loops come to their end with nothing left. -/
  unstacks : T.Unstacks (T.children 0) T.depthFirst
  unqueues : T.Unqueues (T.children 0) T.breadthFirst
  /-- The first walk is the preorder of the forest in which each symbol is over its
      children. -/
  depthFirst_eq : ∃ f, T.Shows (T.children 0) f ∧ T.depthFirst = f.preorder
  /-- The second one is one level after the other. -/
  breadthFirst_eq : T.breadthFirst = (List.range count).flatMap T.level
  /-- A level has the symbols with as many symbols around them. -/
  mem_level_iff : ∀ k n, n ∈ T.level k ↔ T.IsSymbol n ∧ (T.ancestors n).length = k
  /-- There are no more levels than symbols. -/
  level_eq_nil : ∀ k, count ≤ k → T.level k = []
  /-- Each meets every symbol once, and the root never. -/
  count_depthFirst : ∀ n, T.depthFirst.count n = if 0 < n ∧ n ≤ count then 1 else 0
  count_breadthFirst : ∀ n, T.breadthFirst.count n = if 0 < n ∧ n ≤ count then 1 else 0
  /-- So each is as long as there are symbols. -/
  length_depthFirst : T.depthFirst.length = count
  length_breadthFirst : T.breadthFirst.length = count

/-- Whatever the matches are, both walks come to each symbol once. -/
theorem isWalked_build (t : SourceTree) (found : List Occurrence) (text : String) :
    (build t found text).IsWalked found.length where
  size_eq := by rw [size, size_symbols_build, Nat.add_sub_cancel]
  unstacks := by
    rw [depthFirst_build]
    exact unstacks_build
  unqueues := by
    rw [breadthFirst_build]
    exact unqueues_build
  depthFirst_eq := ⟨_, shows_outline, depthFirst_build⟩
  breadthFirst_eq := breadthFirst_build
  mem_level_iff k n := by
    rw [SymbolTree.mem_level_iff]
    refine and_congr_right fun hn => ?_
    obtain ⟨p, hp⟩ := exists_parent? hn
    rw [ancestors_build, wayTo_of_parent? hp, List.dropLast_concat, List.length_append]
    exact Nat.succ_inj
  level_eq_nil _ hk := SymbolTree.level_eq_nil hk
  count_depthFirst n := by
    rw [depthFirst_build, nodup_preorder_outline.count]
    simp only [mem_preorder_outline_iff, isSymbol_build]
  count_breadthFirst n := by
    rw [breadthFirst_build, nodup_levels.count]
    simp only [mem_levels_iff, isSymbol_build]
  length_depthFirst := by
    rw [depthFirst_build]
    exact length_eq_of_mem_iff nodup_preorder_outline fun _ => mem_preorder_outline_iff
  length_breadthFirst := by
    rw [breadthFirst_build]
    exact length_eq_of_mem_iff nodup_levels fun _ => mem_levels_iff

example : (build typedefTree typedefSymbols "").depthFirst = [4, 2, 3, 1, 5] := by decide

example : (build typedefTree typedefSymbols "").breadthFirst = [4, 2, 3, 5, 1] := by decide

end SymbolPaths.SymbolTree
