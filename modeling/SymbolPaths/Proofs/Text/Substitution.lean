import Mathlib.Data.List.Infix
import Mathlib.Logic.Function.Basic
import SymbolPaths.Text.Substitution

/-!
# What is put in for a marker

A text with a marker in it says what was put in for the marker: the text between the occurrences
stays, so the length of what is put in can be told, and with that its place. Other markers in the
text stay as well, wherever they do not overlap with this one.

* `occurs_iff_infix`: a marker stands somewhere in a text;
* `exists_substitute_eq_intercalate`: substitution puts one value between pieces of the text that
  do not depend on it;
* `injective_substitute`: different values give different texts;
* `substitute_append_marker`: a marker with the same first character, which is nowhere else in
  either of them, parts a text in two.

Substitution goes on behind what was replaced, so occurrences that overlap are not all replaced;
it is a join of the pieces between those that are. With two pieces or more the length of the whole
tells that of the value, and the value then stands behind the first piece.
-/

namespace SymbolPaths.Text

variable {marker value m k u w cs : List Char} {b : Char}

theorem occurs_iff_infix : occurs marker cs ↔ marker <:+: cs := by
  induction cs with
  | nil => rw [occurs, List.isEmpty_iff, List.infix_nil]
  | cons c cs ih => rw [occurs, Bool.or_eq_true, ih, List.isPrefixOf_iff_prefix, List.infix_cons_iff]

/-! ### The value that was put in -/

theorem intercalate_cons_head (sep p : List Char) (c : Char) (ps : List (List Char)) :
    sep.intercalate ((c :: p) :: ps) = c :: sep.intercalate (p :: ps) := by
  cases ps with
  | nil => rw [List.intercalate_singleton, List.intercalate_singleton]
  | cons q ps =>
    rw [List.intercalate_cons_cons, List.intercalate_cons_cons, List.cons_append, List.cons_append]

/-- The value is put between pieces of the text, of which there are several if the marker is in
    the text. -/
theorem exists_substitute_eq_intercalate (hne : marker ≠ []) (cs : List Char) :
    ∃ p ps, (occurs marker cs ↔ ps ≠ []) ∧
      ∀ value, substitute marker value cs = value.intercalate (p :: ps) := by
  induction cs using substitute.induct marker with
  | case1 =>
    refine ⟨[], [], ?_, fun value => ?_⟩
    · simp [occurs, hne]
    · rw [substitute, List.intercalate_singleton]
  | case2 c cs hprefix ih =>
    obtain ⟨p, ps, _, heq⟩ := ih
    refine ⟨[], p :: ps, ?_, fun value => ?_⟩
    · simp [occurs, hprefix]
    · rw [substitute, if_pos hprefix, heq, List.intercalate_cons_cons, List.nil_append]
  | case3 c cs hprefix ih =>
    obtain ⟨p, ps, hoccurs, heq⟩ := ih
    refine ⟨c :: p, ps, ?_, fun value => ?_⟩
    · rw [← hoccurs, occurs, Bool.or_eq_true, or_iff_right hprefix]
    · rw [substitute, if_neg hprefix, heq, intercalate_cons_head]

/-- Joined pieces are as long as the pieces and what stands between them. -/
theorem exists_length_intercalate (p : List Char) (ps : List (List Char)) :
    ∃ length, ∀ sep : List Char,
      (sep.intercalate (p :: ps)).length = length + ps.length * sep.length := by
  induction ps generalizing p with
  | nil => exact ⟨p.length, fun sep => by simp⟩
  | cons q ps ih =>
    obtain ⟨length, hlength⟩ := ih q
    refine ⟨p.length + length, fun sep => ?_⟩
    rw [List.intercalate_cons_cons, List.length_append, List.length_append, hlength,
      List.length_cons, Nat.succ_mul]
    omega

/-- What stands between several pieces can be told from the whole. -/
theorem injective_intercalate (p q : List Char) (ps : List (List Char)) :
    Function.Injective fun sep : List Char => sep.intercalate (p :: q :: ps) := by
  intro v v' (h : v.intercalate (p :: q :: ps) = v'.intercalate (p :: q :: ps))
  obtain ⟨length, hlength⟩ := exists_length_intercalate p (q :: ps)
  have hsame := congrArg List.length h
  rw [hlength, hlength, Nat.add_left_cancel_iff, Nat.mul_right_inj (by simp)] at hsame
  rw [List.intercalate_cons_cons, List.intercalate_cons_cons, List.append_assoc, List.append_assoc,
    List.append_cancel_left_eq] at h
  exact (List.append_inj h hsame).1

theorem injective_substitute (hne : marker ≠ []) (h : occurs marker cs) :
    Function.Injective fun value => substitute marker value cs := by
  obtain ⟨p, ps, hoccurs, heq⟩ := exists_substitute_eq_intercalate hne cs
  obtain ⟨q, ps, rfl⟩ := List.exists_cons_of_ne_nil (hoccurs.1 h)
  simpa only [heq] using injective_intercalate p q ps

/-! ### Other markers -/

/-- A text without the first character of the marker stays in front of any other text. -/
theorem substitute_append_of_notMem (hu : b ∉ u) :
    substitute (b :: m) value (u ++ cs) = u ++ substitute (b :: m) value cs := by
  induction u with
  | nil => rfl
  | cons c u ih =>
    rw [List.mem_cons, not_or] at hu
    have hprefix : ¬(b :: m).isPrefixOf (c :: (u ++ cs)) := by simp [hu.1]
    rw [List.cons_append, substitute, if_neg hprefix, ih hu.2, List.cons_append]

/-- A marker that starts before another one ends before it. -/
theorem prefix_of_prefix_append_marker (hm : b ∉ m) (hmk : ¬b :: m <+: b :: k)
    (hkm : ¬b :: k <+: b :: m) (h : b :: m <+: u ++ (b :: k ++ w)) : b :: m <+: u := by
  rcases List.prefix_or_prefix_of_prefix h (List.prefix_append u _) with h' | ⟨r, hr⟩
  · exact h'
  · cases u with
    | nil =>
      rcases List.prefix_or_prefix_of_prefix h (List.prefix_append (b :: k) w) with h' | h'
      · exact absurd h' hmk
      · exact absurd h' hkm
    | cons c u =>
      rw [List.cons_append, List.cons_eq_cons] at hr
      obtain ⟨rfl, rfl⟩ := hr
      -- What is left of the marker would begin with the first character of the other one.
      rw [List.cons_append, List.cons_prefix_cons, List.prefix_append_right_inj] at h
      cases r with
      | nil => rw [List.append_nil]
      | cons d r =>
        obtain ⟨rfl, _⟩ := List.cons_prefix_cons.1 h.2
        exact absurd (List.mem_append_right u List.mem_cons_self) hm

/-- Another marker parts the text in two, in which the first one is replaced by itself. -/
theorem substitute_append_marker (hm : b ∉ m) (hk : b ∉ k) (hmk : ¬b :: m <+: b :: k)
    (hkm : ¬b :: k <+: b :: m) (value u w : List Char) :
    substitute (b :: m) value (u ++ (b :: k ++ w)) =
      substitute (b :: m) value u ++ (b :: k ++ substitute (b :: m) value w) := by
  have hiff : ∀ u, (b :: m).isPrefixOf (u ++ (b :: k ++ w)) ↔ (b :: m).isPrefixOf u := by
    intro u
    rw [List.isPrefixOf_iff_prefix, List.isPrefixOf_iff_prefix]
    exact ⟨prefix_of_prefix_append_marker hm hmk hkm, fun h => h.trans (List.prefix_append u _)⟩
  induction u using substitute.induct (b :: m) with
  | case1 =>
    have hrest : ¬(b :: m).isPrefixOf (b :: (k ++ w)) := mt (hiff []).1 (by simp)
    rw [substitute, List.nil_append, List.nil_append, List.cons_append, substitute, if_neg hrest,
      substitute_append_of_notMem hk, List.cons_append]
  | case2 c cs hprefix ih =>
    have hlength := (List.isPrefixOf_iff_prefix.1 hprefix).length_le
    have hrest := (hiff (c :: cs)).2 hprefix
    rw [List.cons_append] at hrest ⊢
    rw [substitute, if_pos hrest, substitute, if_pos hprefix,
      List.drop_append_of_le_length (Nat.sub_le_of_le_add hlength), ih, List.append_assoc]
  | case3 c cs hprefix ih =>
    have hrest := mt (hiff (c :: cs)).1 hprefix
    rw [List.cons_append] at hrest ⊢
    rw [substitute, if_neg hrest, substitute, if_neg hprefix, ih]
    rfl

end SymbolPaths.Text
