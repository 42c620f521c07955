import SymbolPaths.Yaml.Cursor
import SymbolPaths.Yaml.Scalar.Folding

/-!
# Where entries start

Characters and positions as the readers of scalars see them. An entry that is written starts at
the start of a line, with a letter or with a hyphen and a space; neither goes on with what was
written before.

* `startsEntry`: whether an entry, or nothing, comes next;
* `skipGap_of_startsEntry`: the gap before an entry ends there.
-/

namespace SymbolPaths.Yaml

variable {c : Char} {cs gap : List Char} {m : Mark}

/-! ### Characters and positions -/

/-- Of the printable characters in a line only the space is a gap. -/
theorem isGap_eq_of_isPrintable (h : isPrintable c) (hbreak : isBreak c = false) :
    isGap c = (c == ' ') := by
  have htab : (c == '\t') = false := by
    rw [beq_eq_false_iff_ne]
    rintro rfl
    revert h
    decide
  rw [isGap, isBlank, hbreak, htab, Bool.or_false, Bool.or_false]

theorem isGap_of_isBreak (h : isBreak c) : isGap c := by rw [isGap, h, Bool.or_true]

theorem isBreak_of_isGap_eq_false (h : isGap c = false) : isBreak c = false :=
  (Bool.or_eq_false_iff.1 h).2

@[simp] theorem Mark.column_after_of_isBreak (h : isBreak c) (m : Mark) :
    (m.after c).column = 0 := by
  rw [Mark.after, if_pos h]

/-- Behind any other character than a line end is no start of a line. -/
theorem Mark.column_after_pos (h : isBreak c = false) (m : Mark) : 0 < (m.after c).column := by
  rw [Mark.after, h]
  exact Nat.succ_pos _

/-- Characters of one line are counted in any grouping. -/
theorem Mark.skip_after (h : isBreak c = false) (m : Mark) (n : Nat) :
    (m.after c).skip n = m.skip (n + 1) := by
  rw [Mark.after, h, if_neg Bool.false_ne_true, Mark.skip, Mark.skip, Nat.add_right_comm,
    Nat.add_right_comm m.column]
  rfl

/-- A document ends only where a line starts. -/
theorem endsDocument_eq_false (h : 0 < m.column) (cs : List Char) : endsDocument m cs = false := by
  rw [endsDocument, beq_eq_false_iff_ne.2 (Nat.ne_of_gt h), Bool.false_and]

/-! ### Spaces -/

/-- Spaces in a line stand for themselves. -/
theorem foldGap_spaces (h : ∀ c ∈ gap, c = ' ') : foldGap false gap = gap := by
  have hnone : gap.filter isBreak = [] := by
    refine List.filter_eq_nil_iff.2 fun c hc => ?_
    rw [h c hc]
    decide
  rw [foldGap, hnone]
  rfl

theorem forall_mem_append_space (h : ∀ c ∈ gap, c = ' ') : ∀ c ∈ gap ++ [' '], c = ' ' := by
  simpa [or_imp, forall_and] using h

/-! ### Entries -/

/-- Whether an entry, or nothing, comes next at the start of a line. -/
def startsEntry : List Char → Bool
  | [] => true
  | c :: cs => c.isLower || (c == '-' && cs.head? == some ' ')

theorem isLower_or_of_startsEntry (h : startsEntry (c :: cs)) :
    c.isLower ∨ (c = '-' ∧ cs.head? = some ' ') := by
  simpa [startsEntry] using h

/-- A character that no entry starts with. -/
theorem ne_of_startsEntry {d : Char} (h : startsEntry (c :: cs))
    (hd : d.isLower = false ∧ d ≠ '-') : c ≠ d := by
  rintro rfl
  rcases isLower_or_of_startsEntry h with hlower | ⟨hhyphen, -⟩
  · exact absurd (hd.1.symm.trans hlower) Bool.false_ne_true
  · exact hd.2 hhyphen

/-- No entry starts with a gap. -/
theorem isGap_of_startsEntry (h : startsEntry (c :: cs)) : isGap c = false := by
  simp only [isGap, isBlank, isBreak, Bool.or_eq_false_iff, beq_eq_false_iff_ne]
  exact ⟨⟨ne_of_startsEntry h (by decide), ne_of_startsEntry h (by decide)⟩,
    ⟨ne_of_startsEntry h (by decide), ne_of_startsEntry h (by decide)⟩,
    ne_of_startsEntry h (by decide)⟩

/-- No entry is a line of three hyphens or dots. -/
theorem endsDocument_of_startsEntry (h : startsEntry cs) (m : Mark) :
    endsDocument m cs = false := by
  have hrule {x : Char} (hx : x.isLower = false ∧ x ≠ ' ') : isRule x cs = false := by
    match cs, h with
    | [], _ => rfl
    | [_], _ => rfl
    | [_, _], _ => rfl
    | c :: d :: e :: rest, h =>
      simp only [isRule, Bool.and_eq_false_iff, beq_eq_false_iff_ne]
      rcases isLower_or_of_startsEntry h with hlower | ⟨-, hspace⟩
      · refine .inl (.inl (.inl ?_))
        rintro rfl
        exact absurd (hx.1.symm.trans hlower) Bool.false_ne_true
      · obtain rfl : d = ' ' := Option.some.inj hspace
        exact .inl (.inl (.inr (Ne.symm hx.2)))
  rw [endsDocument, hrule (by decide), hrule (by decide)]
  exact Bool.and_false _

/-- The gap before an entry ends there. -/
theorem skipGap_of_startsEntry (h : startsEntry cs) (flow tabs : Bool) (m : Mark) :
    skipGap flow tabs false m cs = some ⟨m, cs⟩ := by
  cases cs with
  | nil => rfl
  | cons c cs =>
    have hbreak := isBreak_of_isGap_eq_false (isGap_of_startsEntry h)
    have hspace : c ≠ ' ' := ne_of_startsEntry h (by decide)
    have htab : c ≠ '\t' := ne_of_startsEntry h (by decide)
    have hcomment : c ≠ '#' := ne_of_startsEntry h (by decide)
    simp only [skipGap, hbreak, Bool.false_eq_true, if_false, if_neg hspace, if_neg htab,
      if_neg hcomment]

end SymbolPaths.Yaml
