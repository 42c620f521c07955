import Mathlib.Data.List.Basic
import SymbolPaths.Forest

/-!
# Above and below in a forest

What lies below a node is a forest again, whose numbers go on from the node
(`under`). A search from the outermost nodes down, which stops each branch at
the first node that it looks for, finds the topmost ones (`topmost`).

* `mem_enclosing_iff`: a node encloses exactly what lies below it;
* `enclosing_eq_append`: the nodes above a node are those above any one of
  them, that one, and those above the node in what lies below it;
* `mem_topmost_under_iff`: the search below a node finds what has that node
  above it, and above it but below that node nothing else that it looks for.

Nodes are numbered from left to right, each before those below it. So what lies below a node has
the numbers that follow its own, up to as many as there are nodes, and every induction on a forest
splits the numbers at three places: the first node, those below it, and those after all of these.
-/

namespace SymbolPaths.Forest

variable {α : Type} {f : Forest α} {start m n : Nat} {p : Nat → Bool}

/-- The forest below node `n`, where the first node of the forest has number
    `start`. Its first node has number `n + 1`. -/
def under (start n : Nat) : Forest α → Forest α
  | nil => nil
  | cons _ below after =>
    if n = start then below
    else if n < start + 1 + below.size then below.under (start + 1) n
    else after.under (start + 1 + below.size) n

/-- The numbers of the nodes with `p` that have no such node above them, from
    left to right, where the first node of the forest has number `start`. -/
def topmost (p : Nat → Bool) (start : Nat) : Forest α → List Nat
  | nil => []
  | cons _ below after =>
    (if p start then [start] else below.topmost p (start + 1)) ++
      after.topmost p (start + 1 + below.size)

/-- What is below a node is within the forest, and so is the node. -/
theorem size_under_le (f : Forest α) (start n : Nat) (h : 0 < (f.under start n).size) :
    start ≤ n ∧ n + 1 + (f.under start n).size ≤ start + f.size := by
  induction f generalizing start with
  | nil => simp [under, size] at h
  | cons _ below after ihb iha =>
    simp only [under, size] at h ⊢
    split at h
    · next hn => simp only [if_pos hn]; omega
    · next hn =>
      rw [if_neg hn]
      split at h
      · next hlt => have := ihb _ h; rw [if_pos hlt]; omega
      · next hlt => have := iha _ h; rw [if_neg hlt]; omega

theorem mem_enclosing_iff :
    m ∈ f.enclosing start n ↔ m < n ∧ n < m + 1 + (f.under start m).size := by
  induction f generalizing start with
  | nil =>
    simp only [enclosing, under, size, List.not_mem_nil, false_iff]
    omega
  | cons a below after ihb iha =>
    have hsize := size_under_le (cons a below after) start m
    have hb := size_under_le below (start + 1) m
    have ha := size_under_le after (start + 1 + below.size) m
    simp only [under, enclosing, size] at hsize ⊢
    split
    · -- Nothing is above the first node, and nothing below `m` comes before it.
      grind
    · split
      · -- Above what is below the first node are that one and those below it.
        rw [List.mem_cons, ihb]
        grind
      · rw [iha]
        grind

/-- The way down to a node goes through everything above it. -/
theorem enclosing_eq_append (h : m ∈ f.enclosing start n) :
    f.enclosing start n =
      f.enclosing start m ++ m :: (f.under start m).enclosing (m + 1) n := by
  induction f generalizing start with
  | nil => simp [enclosing] at h
  | cons _ below after ihb iha =>
    rw [enclosing] at h
    simp only [enclosing, under]
    split at h
    · simp at h
    · next hn =>
      rw [if_neg hn]
      split at h
      · next hlt =>
        rw [if_pos hlt]
        rcases List.mem_cons.1 h with rfl | h
        · simp
        · have := lt_of_mem_enclosing h
          rw [if_neg (by omega), if_pos (by omega), if_neg (by omega), if_pos (by omega), ihb h,
            List.cons_append]
      · next hlt =>
        have := lt_of_mem_enclosing h
        rw [if_neg hlt, if_neg (by omega), if_neg (by omega), if_neg (by omega),
          if_neg (by omega), iha h]

/-- Every node above a node ends the way down to it. -/
theorem enclosing_of_eq_append {l₁ l₂ : List Nat} (h : f.enclosing start n = l₁ ++ m :: l₂) :
    f.enclosing start m = l₁ := by
  have hm : m ∈ f.enclosing start n := by
    rw [h]
    exact List.mem_append_right _ List.mem_cons_self
  rw [enclosing_eq_append hm] at h
  -- Neither part around `m` holds `m` itself, so the list splits at `m` in one way.
  exact ((List.append_cons_inj_of_notMem
    (fun hl => Nat.lt_irrefl m (lt_of_mem_enclosing hl).2)
    (fun hr => Nat.lt_irrefl m (lt_of_mem_enclosing hr).1)).1 h).1

theorem pairwise_enclosing : (f.enclosing start n).Pairwise (· < ·) := by
  induction f generalizing start with
  | nil => exact .nil
  | cons _ below after ihb iha =>
    rw [enclosing]
    split
    · exact .nil
    · split
      · exact .cons (fun m hm => (lt_of_mem_enclosing hm).1) ihb
      · exact iha

/-- Of two nodes above a node the first one is above the other. -/
theorem pairwise_mem_enclosing :
    (f.enclosing start n).Pairwise fun m k => m ∈ f.enclosing start k := by
  rw [List.pairwise_iff_getElem]
  intro i j hi hj hij
  have hsplit : f.enclosing start n = (f.enclosing start n).take j ++
      (f.enclosing start n)[j] :: (f.enclosing start n).drop (j + 1) := by simp
  rw [enclosing_of_eq_append hsplit]
  exact List.mem_take_iff_getElem.2 ⟨i, by omega, rfl⟩

/-- The search finds the nodes that it looks for with none of them above. -/
theorem mem_topmost_iff : n ∈ f.topmost p start ↔
    (start ≤ n ∧ n < start + f.size) ∧ p n ∧ ∀ m ∈ f.enclosing start n, ¬p m := by
  induction f generalizing start with
  | nil =>
    simp only [topmost, size, List.not_mem_nil, false_iff]
    omega
  | cons _ below after ihb iha =>
    simp only [topmost, size, enclosing, List.mem_append, iha]
    -- The node is the first one, below it, or after all that.
    rcases Nat.lt_trichotomy n start with hn | rfl | hn
    · split <;> grind
    · by_cases hp : p n <;> grind
    · rw [if_neg (Nat.not_le.2 hn)]
      by_cases hp : p start <;> by_cases hlt : n < start + 1 + below.size <;> grind

/-- The search below node `m` finds the nodes that it looks for with `m` above
    them, and none of them between. -/
theorem mem_topmost_under_iff : n ∈ (f.under start m).topmost p (m + 1) ↔
    m ∈ f.enclosing start n ∧ p n ∧ ∀ k ∈ f.enclosing start n, m < k → ¬p k := by
  rw [mem_topmost_iff]
  constructor
  · rintro ⟨⟨hmn, hn⟩, hp, h⟩
    have hm : m ∈ f.enclosing start n := mem_enclosing_iff.2 ⟨hmn, hn⟩
    refine ⟨hm, hp, fun k hk hmk => ?_⟩
    rw [enclosing_eq_append hm, List.mem_append, List.mem_cons] at hk
    rcases hk with hk | rfl | hk
    · exact absurd (lt_of_mem_enclosing hk).2 (Nat.lt_asymm hmk)
    · exact absurd hmk (Nat.lt_irrefl k)
    · exact h k hk
  · rintro ⟨hm, hp, h⟩
    have hmn := mem_enclosing_iff.1 hm
    refine ⟨hmn, hp, fun k hk => h k ?_ (lt_of_mem_enclosing hk).1⟩
    rw [enclosing_eq_append hm]
    exact List.mem_append_right _ (List.mem_cons_of_mem _ hk)

/-- The value at a node is that of the first one, or is found below it or after it. -/
theorem getElem?_preorder_cons {a : α} {below after : Forest α} :
    (cons a below after).preorder[n - start]? =
      if n ≤ start then some a
      else if n < start + 1 + below.size then below.preorder[n - (start + 1)]?
      else after.preorder[n - (start + 1 + below.size)]? := by
  rw [preorder]
  split
  · next hn => rw [Nat.sub_eq_zero_of_le hn, List.getElem?_cons_zero]
  · next hn =>
    have hsub : n - start = n - (start + 1) + 1 := by omega
    rw [hsub, List.getElem?_cons_succ]
    split
    · next hlt => rw [List.getElem?_append_left (by rw [length_preorder]; omega)]
    · next hlt =>
      rw [List.getElem?_append_right (by rw [length_preorder]; omega), length_preorder,
        Nat.sub_sub]

end SymbolPaths.Forest
