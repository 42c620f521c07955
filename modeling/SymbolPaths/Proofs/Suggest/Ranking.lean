import SymbolPaths.Proofs.Suggest.Score
import SymbolPaths.Proofs.Symbol.Traversal

/-!
# Rankings

Suggestions for a query are the symbols of a file, each once, sorted by how far their paths are
from it. Sorting moves no symbol past another one that is as far, and as no score but that of the
query itself is zero, not even after rounding, a symbol whose path is the query comes before all
others.

* `rank_eq`: the symbols are sorted themselves, not their scores with them;
* `pairwise_le_rank`, `sublist_rank`, `rank_eq_append`: their order;
* `isRanked_rank`: suggestions for any query, or for none (`IsRanked`).

Scores are doubles, and it takes three facts about these that they are ordered linearly, that no
score is negative, and that zero is the score of the query alone. The rest is about sorting: it is
stable, so of symbols that are equally far the first one found comes first, and what is no farther
than an exact match is an exact match.
-/

namespace SymbolPaths

namespace Binary64

variable {a b c : Binary64}

/-- These doubles are not negative, so they are ordered as their bits are. -/
theorem le_trans (hab : a.le b) (hbc : b.le c) : a.le c := by
  simp only [le, decide_eq_true_eq] at *
  exact Nat.le_trans hab hbc

theorem le_total (a b : Binary64) : a.le b || b.le a := by
  simp only [le, Bool.or_eq_true, decide_eq_true_eq]
  exact Nat.le_total _ _

theorem eq_zero_of_le (h : a.le zero) : a = zero := by
  obtain ⟨bits⟩ := a
  simp only [le, decide_eq_true_eq, zero, Nat.le_zero] at h
  rw [h, zero]

end Binary64

namespace Suggest

variable {T : SymbolTree} {query : String} {m n : Nat}

/-- The path of a symbol as a query is compared with it: its tags, with commas between them. -/
def pathText (T : SymbolTree) (n : Nat) : String := ",".intercalate (T.pathOf n).tags

/-- A symbol is scored by its path with commas between the tags. -/
theorem scoreOf_eq (T : SymbolTree) (query : String) (n : Nat) :
    scoreOf T query n = score query (pathText T n) := rfl

/-- Whether a symbol is no farther from a query than another one. -/
def isNoFarther (T : SymbolTree) (query : String) (m n : Nat) : Bool :=
  (scoreOf T query m).le (scoreOf T query n)

/-- Whether the path of a symbol is a query. -/
def isExact (T : SymbolTree) (query : String) (n : Nat) : Bool := pathText T n == query

theorem isNoFarther_trans (T : SymbolTree) (query : String) (a b c : Nat)
    (hab : isNoFarther T query a b) (hbc : isNoFarther T query b c) : isNoFarther T query a c :=
  Binary64.le_trans hab hbc

theorem isNoFarther_total (T : SymbolTree) (query : String) (a b : Nat) :
    isNoFarther T query a b || isNoFarther T query b a :=
  Binary64.le_total _ _

/-- Only the query itself has the score zero. -/
theorem scoreOf_eq_zero_iff : scoreOf T query n = Binary64.zero ↔ isExact T query n := by
  rw [scoreOf_eq, score_eq_zero_iff, isExact, beq_iff_eq, eq_comm]

/-- What is no farther from a query than the query itself is the query. -/
theorem isExact_of_isNoFarther (h : isNoFarther T query m n) (hn : isExact T query n) :
    isExact T query m := by
  rw [isNoFarther, scoreOf_eq_zero_iff.2 hn] at h
  exact scoreOf_eq_zero_iff.1 (Binary64.eq_zero_of_le h)

/-- Scores are computed before they are compared, but what is sorted by them is sorted by the
    symbols' own scores. -/
theorem rank_eq (T : SymbolTree) (hquery : query ≠ "") :
    rank T (some query) = T.depthFirst.mergeSort (isNoFarther T query) := by
  have hpairs := List.map_mergeSort (r := isNoFarther T query)
    (s := fun a b : Binary64 × Nat => a.1.le b.1) (f := fun n => (scoreOf T query n, n))
    (l := T.depthFirst) fun _ _ _ _ => rfl
  simp only [rank, if_neg hquery]
  rw [← hpairs, List.map_map]
  exact List.map_id _

/-- Of two suggestions the first is no farther from the query. -/
theorem pairwise_le_rank (T : SymbolTree) (hquery : query ≠ "") :
    (rank T (some query)).Pairwise fun m n => isNoFarther T query m n := by
  rw [rank_eq T hquery]
  exact List.pairwise_mergeSort (isNoFarther_trans T query) (isNoFarther_total T query) _

/-- Suggestions are the symbols of the file, in whatever order. -/
theorem perm_rank (T : SymbolTree) (query : Option String) :
    (rank T query).Perm T.depthFirst := by
  cases query with
  | none => exact .refl _
  | some query =>
    by_cases hquery : query = ""
    · rw [rank, if_pos hquery]
    · rw [rank_eq T hquery]
      exact List.mergeSort_perm _ _

/-- Symbols that are equally far keep their order. -/
theorem sublist_rank (hquery : query ≠ "") (h : [m, n].Sublist T.depthFirst)
    (hscore : scoreOf T query m = scoreOf T query n) : [m, n].Sublist (rank T (some query)) := by
  have hle : isNoFarther T query m n := by
    rw [isNoFarther, hscore, Binary64.le, decide_eq_true_eq]
  rw [rank_eq T hquery]
  exact List.pair_sublist_mergeSort (isNoFarther_trans T query) (isNoFarther_total T query) hle h

/-- A list in which nothing with a property comes after something without it begins with all that
    has it. -/
theorem filter_append_of_pairwise {α : Type} {p : α → Bool} {l : List α}
    (h : l.Pairwise fun m n => p n → p m) : l.filter p ++ l.filter (fun n => !p n) = l := by
  induction h with
  | nil => rfl
  | @cons m l hm _ ih =>
    cases hp : p m with
    | true => simp [hp, ih]
    | false =>
      have hnone : l.filter p = [] := by
        simpa using fun n hn => Bool.eq_false_iff.2 fun hpn => Bool.eq_false_iff.1 hp (hm n hn hpn)
      rw [hnone, List.nil_append] at ih
      simp [hp, hnone, ih]

/-- The symbols whose path is the query come first. -/
theorem rank_eq_append (T : SymbolTree) (hquery : query ≠ "") :
    (rank T (some query)).filter (isExact T query) ++
      (rank T (some query)).filter (fun n => !isExact T query n) = rank T (some query) :=
  filter_append_of_pairwise ((pairwise_le_rank T hquery).imp isExact_of_isNoFarther)

/-- What suggestions for a query are, or without one, in a tree of `count` symbols. -/
structure IsRanked (T : SymbolTree) (count : Nat) (query : Option String) (ranked : List Nat) :
    Prop where
  /-- The symbols of the file are suggested, and nothing else. -/
  perm : ranked.Perm T.depthFirst
  /-- Every symbol is suggested once, and the root never. -/
  count_eq : ∀ n, ranked.count n = if 0 < n ∧ n ≤ count then 1 else 0
  /-- With nothing to compare with, symbols stay in the order of the file. -/
  unsorted : query = none ∨ query = some "" → ranked = T.depthFirst
  /-- The scores never decrease. -/
  pairwise_le : ∀ q, query = some q → q ≠ "" →
    ranked.Pairwise fun m n => (score q (pathText T m)).le (score q (pathText T n))
  /-- Of two symbols with one score the one that comes first in the file is suggested first. -/
  stable : ∀ q, query = some q → q ≠ "" → ∀ m n, [m, n].Sublist T.depthFirst →
    score q (pathText T m) = score q (pathText T n) → [m, n].Sublist ranked
  /-- Symbols whose path is the query are suggested before all others. -/
  exact_first : ∀ q, query = some q → q ≠ "" → ∃ same others, ranked = same ++ others ∧
    (∀ n ∈ same, pathText T n = q) ∧ ∀ n ∈ others, pathText T n ≠ q

/-- For any file and any query, suggestions are what they should be: sorting gives the order, and
    the walk over the tree says that each symbol is there once. -/
theorem isRanked_rank (t : SourceTree) (found : List Occurrence) (text : String)
    (query : Option String) :
    let T := SymbolTree.build t found text
    IsRanked T found.length query (rank T query) where
  perm := perm_rank _ query
  count_eq n := by
    rw [(perm_rank _ query).count_eq, SymbolTree.depthFirst_build,
      SymbolTree.nodup_preorder_outline.count]
    simp only [SymbolTree.mem_preorder_outline_iff, SymbolTree.isSymbol_build]
  unsorted := by
    rintro (rfl | rfl) <;> rfl
  pairwise_le := by
    rintro q rfl hq
    exact pairwise_le_rank _ hq
  stable := by
    rintro q rfl hq m n
    exact sublist_rank hq
  exact_first := by
    rintro q rfl hq
    exact ⟨_, _, (rank_eq_append _ hq).symm, by simp [isExact], by simp [isExact]⟩

end Suggest

end SymbolPaths
