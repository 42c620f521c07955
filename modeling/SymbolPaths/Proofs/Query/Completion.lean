import Mathlib.Data.List.Pairwise
import SymbolPaths.Language.Registry
import SymbolPaths.Proofs.Forest
import SymbolPaths.Symbol.Occurrence

/-!
# The order of matches

A match is complete at the last node that had to be looked at, which is the root of the match
or below it. So where one match comes before another, its root does as well, or the root of the
other one is around it: a node is over before what follows it starts.

* `Pattern.of_mem_matchesAt`: a match ends within what is below its root;
* `Query.of_mem_allMatches`: the same of all matches in a tree, and what they capture;
* `Occurrence.pairwise_find`: the order in which symbols are found.

The order of matches is not the one in which a search meets the roots of the matches. A match is
complete when its last node is seen, and one with an inner root may be complete before one with an
outer root that began earlier. All that is used of it later is said here: behind a match come only
matches whose roots are the same node, are around it, or come after it.
-/

namespace SymbolPaths

namespace Pattern

/-- Whether a pattern is one tree whose root is captured. -/
def capturesRoot : Pattern → Bool
  | .cons step _ .nil => !step.capture.isEmpty
  | _ => false

variable {start : Nat} {p inner rest : Pattern} {f below after : Forest SourceNode}
  {m : PatternMatch} {step : PatternStep} {n : SourceNode}

/-- The first tree of a pattern is matched at the first node, or later on. -/
theorem mem_matchesIn_cons :
    m ∈ matchesIn start (.cons step inner rest) (.cons n below after) ↔
      (step.accepts n below ∧ ∃ a ∈ matchesIn (start + 1) inner below,
        ∃ b ∈ matchesIn (start + 1 + below.size) rest after,
          { captures := (if step.capture.isEmpty then [] else [start]) ++ a.captures ++ b.captures
            last := max start (max a.last b.last) } = m) ∨
      m ∈ matchesIn (start + 1 + below.size) (.cons step inner rest) after := by
  rw [matchesIn, List.mem_append]
  refine or_congr_left ?_
  split
  · next haccepts => simp only [haccepts, true_and, List.mem_flatMap, List.mem_map]
  · next haccepts => simp only [haccepts, Bool.false_eq_true, false_and, List.not_mem_nil]

/-- No node is looked at but those of the forest. -/
theorem last_of_mem_matchesIn (h : m ∈ matchesIn start p f) :
    m.last = 0 ∨ m.last < start + f.size := by
  induction f generalizing p start m with
  | nil =>
    cases p with
    | nil =>
      rw [List.mem_singleton.1 h]
      exact .inl rfl
    | cons => cases h
  | cons n below after ihb iha =>
    cases p with
    | nil =>
      rw [List.mem_singleton.1 h]
      exact .inl rfl
    | cons step inner rest =>
      rw [Forest.size]
      rcases mem_matchesIn_cons.1 h with ⟨_, a, ha, b, hb, rfl⟩ | hm
      · have := ihb ha
        have := iha hb
        simp only
        omega
      · have := iha hm
        omega

/-- A match captures its root first, and ends there or below. -/
theorem of_mem_matchesAt (hp : p.capturesRoot) (h : m ∈ p.matchesAt start n below) :
    m.captures.head? = some start ∧ start ≤ m.last ∧ m.last < start + 1 + below.size := by
  obtain _ | ⟨step, inner, _ | _⟩ := p
  · cases hp
  · rcases mem_matchesIn_cons.1 h with ⟨_, a, ha, b, hb, rfl⟩ | hm
    · obtain rfl := List.mem_singleton.1 hb
      have hcapture : step.capture.isEmpty = false := by simpa [capturesRoot] using hp
      have hlast := last_of_mem_matchesIn ha
      refine ⟨by simp [hcapture], ?_⟩
      simp only
      omega
    · cases hm
  · cases hp

end Pattern

namespace QueryMatch

variable {a b c : QueryMatch}

/-- Matches are ordered by where they are complete, then by where they begin, and then by their
    pattern. -/
theorem le_iff : a.le b ↔ a.last < b.last ∨ a.last = b.last ∧
    (a.root < b.root ∨ a.root = b.root ∧ a.pattern ≤ b.pattern) := by
  simp only [le, Bool.or_eq_true, Bool.and_eq_true, decide_eq_true_eq, beq_iff_eq]

theorem le_trans (h : a.le b) (h' : b.le c) : a.le c := by
  rw [le_iff] at *
  omega

theorem le_total (a b : QueryMatch) : a.le b || b.le a := by
  rw [Bool.or_eq_true, le_iff, le_iff]
  omega

end QueryMatch

namespace Query

variable {q : Query} {start : Nat} {f : Forest SourceNode} {t : SourceTree} {m : QueryMatch}

/-- Each match captures its root first, and ends there or below. -/
theorem of_mem_matchesIn (hq : ∀ p ∈ q, Pattern.capturesRoot p) (h : m ∈ q.matchesIn start f) :
    (start ≤ m.root ∧ m.root < start + f.size) ∧ m.captures.head? = some m.root ∧
      m.root ≤ m.last ∧ m.last < m.root + 1 + (f.under start m.root).size := by
  induction f generalizing start with
  | nil => cases h
  | cons n below after ihb iha =>
    rw [matchesIn, List.mem_append, List.mem_append] at h
    rw [Forest.under, Forest.size]
    rcases h with (h | h) | h
    · obtain ⟨⟨p, i⟩, hpi, hm⟩ := List.mem_flatMap.1 h
      obtain ⟨a, ha, rfl⟩ := List.mem_map.1 hm
      have hmatch := Pattern.of_mem_matchesAt (hq p (List.fst_mem_of_mem_zipIdx hpi)) ha
      rw [if_pos rfl]
      exact ⟨⟨Nat.le_refl _, by simp only; omega⟩, hmatch⟩
    · obtain ⟨hroot, hmatch⟩ := ihb h
      rw [if_neg (by omega), if_pos (by omega)]
      exact ⟨by omega, hmatch⟩
    · obtain ⟨hroot, hmatch⟩ := iha h
      rw [if_neg (by omega), if_neg (by omega)]
      exact ⟨by omega, hmatch⟩

/-- A match captures its root first, and is complete below it. -/
theorem of_mem_allMatches (hq : ∀ p ∈ q, Pattern.capturesRoot p) (h : m ∈ q.allMatches t) :
    m.captures.head? = some m.root ∧
      m.root ≤ m.last ∧ m.last < m.root + 1 + (t.forest.under 0 m.root).size :=
  (of_mem_matchesIn hq (List.mem_mergeSort.1 h)).2

theorem pairwise_le_allMatches : (q.allMatches t).Pairwise (QueryMatch.le · ·) :=
  List.pairwise_mergeSort (fun a b c => @QueryMatch.le_trans a b c) QueryMatch.le_total _

/-- Matches are listed as they are completed. -/
theorem pairwise_allMatches : (q.allMatches t).Pairwise (·.last ≤ ·.last) := by
  refine pairwise_le_allMatches.imp fun h => ?_
  rw [QueryMatch.le_iff] at h
  omega

/-- If no two matches have the same place, there is one order in which the places increase. -/
theorem allMatches_eq {l : List QueryMatch} (hperm : l.Perm (q.matchesIn 0 t.forest))
    (hsorted : l.Pairwise fun a b => ¬b.le a) : q.allMatches t = l := by
  have hle : l.Pairwise (QueryMatch.le · ·) := hsorted.imp fun {a b} h =>
    (Bool.or_eq_true _ _ ▸ QueryMatch.le_total a b).resolve_right h
  have hplace : ∀ ⦃a⦄, a ∈ l → ∀ ⦃b⦄, b ∈ l → a.le b → b.le a → a = b := by
    have : Std.Symm fun a b : QueryMatch => a.le b → b.le a → a = b :=
      ⟨fun a b h hba hab => (h hab hba).symm⟩
    exact List.Pairwise.forall_of_forall (fun a _ _ _ => rfl)
      (hsorted.imp fun h _ hba => absurd hba h)
  have hperm' : (q.allMatches t).Perm l := (List.mergeSort_perm _ _).trans hperm.symm
  exact hperm'.eq_of_pairwise (fun a b ha hb => hplace (hperm'.subset ha) hb)
    pairwise_le_allMatches hle

end Query

/-- The queries of all registered languages capture the root of what they match. -/
theorem Language.capturesRoot {language : Language} {q : Query} (h : language ∈ Language.all)
    (hq : language.query = some q) : ∀ p ∈ q, Pattern.capturesRoot p := by
  have hall : ∀ l ∈ Language.all, ∀ q, l.query = some q → ∀ p ∈ q, Pattern.capturesRoot p := by
    decide
  exact hall language h q hq

namespace Occurrence

variable {q : Query} {t : SourceTree} {file : Bytes}

/-- What is found later is at the same node, behind it or around it. -/
theorem pairwise_find (hq : ∀ p ∈ q, Pattern.capturesRoot p) :
    (find q t file).Pairwise fun a b => a.node ≤ b.node ∨ b.node ∈ t.above a.node := by
  rw [find, ofMatches, List.filterMap_map, List.pairwise_filterMap]
  refine Query.pairwise_allMatches.imp_of_mem fun {m m'} hm hm' hlast o ho o' ho' => ?_
  have hnode {m : QueryMatch} {o : Occurrence} (hm : m ∈ q.allMatches t)
      (ho : ofCaptures? t file m.captures = some o) : o.node ≤ m.last ∧
        m.last < o.node + 1 + (t.forest.under 0 o.node).size := by
    obtain ⟨hhead, hends⟩ := Query.of_mem_allMatches hq hm
    obtain ⟨names, hcaptures⟩ := List.head?_eq_some_iff.1 hhead
    rw [hcaptures] at ho
    cases ho
    exact hends
  obtain ⟨hstart, _⟩ := hnode hm ho
  obtain ⟨_, hend⟩ := hnode hm' ho'
  rw [SourceTree.above, Forest.mem_enclosing_iff]
  omega

end Occurrence

end SymbolPaths
