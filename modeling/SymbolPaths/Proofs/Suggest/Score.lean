import Mathlib.Algebra.Order.Field.Basic
import Mathlib.Algebra.Order.Field.Rat
import SymbolPaths.Proofs.Suggest.Edits
import SymbolPaths.Suggest.Ranking

/-!
# Scores

The score of two texts is their distance in percent of the length of the longer one. The table
that gives the distance has a row for each beginning of the first text only, but since edits can
be taken back and done one after another, the distance is the same from both sides, and a way
through a third text is no shorter.

* `EditDistance.distanceFromEnd_comm`, `EditDistance.distanceFromEnd_triangle`,
  `EditDistance.distanceFromEnd_eq_zero_iff`: the distance is a metric;
* `EditDistance.distanceFromEnd_le_max`, `EditDistance.length_le_add_distanceFromEnd`: what the
  lengths of the texts say about it;
* `Suggest.score_eq_zero_iff`: rounding makes no score zero;
* `Suggest.isGraded`: the score and the distance of two texts.

Each fact about the distance is proved of edits, where it is evident (edits can be taken back, and
be done one after another), and then carried over to the recursion and from there to the table.
The score itself adds a division by the longer length and a rounding to a double, which could make
two scores equal that are not, but never makes one zero.
-/

namespace SymbolPaths

variable {as bs : List Char} {n : Nat}

theorem Edit.length_le (h : Edit as bs) : as.length ≤ bs.length + 1 := by
  cases h <;> simp only [List.length_append, List.length_cons] <;> omega

/-- Several edits take away at most one character each. -/
theorem Edits.length_le (h : Edits n as bs) : as.length ≤ bs.length + n := by
  induction h with
  | none => exact Nat.le_refl _
  | next hedit _ ih =>
    have hone := hedit.length_le
    omega

/-! ### The distance -/

namespace EditDistance

/-- The distance is the same from both sides: the cheapest edits can be taken back, which costs as
    many. -/
theorem distanceFromEnd_comm (cs ds : List Char) :
    distanceFromEnd cs ds = distanceFromEnd ds cs :=
  Nat.le_antisymm (distanceFromEnd_le_of_edits (edits_distanceFromEnd ds cs).symm)
    (distanceFromEnd_le_of_edits (edits_distanceFromEnd cs ds).symm)

/-- A way through a third text is no shorter, as its two parts are edits that can be done one after
    another. -/
theorem distanceFromEnd_triangle (cs ds es : List Char) :
    distanceFromEnd cs es ≤ distanceFromEnd cs ds + distanceFromEnd ds es :=
  distanceFromEnd_le_of_edits ((edits_distanceFromEnd cs ds).append (edits_distanceFromEnd ds es))

/-- Without edits a text stays what it is, so only equal texts have no distance. -/
theorem distanceFromEnd_eq_zero_iff {cs ds : List Char} : distanceFromEnd cs ds = 0 ↔ cs = ds := by
  constructor
  · intro h
    have hedits := edits_distanceFromEnd cs ds
    rw [h] at hedits
    cases hedits
    rfl
  · rintro rfl
    exact distanceFromEnd_self cs

/-- At worst every character is replaced, and what is left of the longer text removed. -/
theorem distanceFromEnd_le_max (cs ds : List Char) :
    distanceFromEnd cs ds ≤ max cs.length ds.length := by
  fun_induction distanceFromEnd cs ds with
  | case1 ds => exact Nat.le_max_right _ _
  | case2 c cs => exact Nat.le_max_left _ _
  | case3 c cs d ds _ _ ih =>
    have hreplace : (if c = d then 0 else 1) ≤ 1 := by split <;> omega
    simp only [List.length_cons]
    omega

/-- What one text has more of has to be taken away, at one edit each. -/
theorem length_le_add_distanceFromEnd (cs ds : List Char) :
    cs.length ≤ ds.length + distanceFromEnd cs ds :=
  (edits_distanceFromEnd cs ds).length_le

end EditDistance

open EditDistance

/-- The table has a row for each beginning of the first text only, and still it gives the same
    distance from both sides. -/
theorem editDistance_comm (as bs : List Char) : editDistance as bs = editDistance bs as := by
  rw [editDistance_eq, editDistance_eq, distanceFromEnd_comm]

/-- The distance that the table gives is no more than what a way through a third text costs. -/
theorem editDistance_triangle (as bs cs : List Char) :
    editDistance as cs ≤ editDistance as bs + editDistance bs cs := by
  simp only [editDistance_eq]
  exact distanceFromEnd_triangle _ _ _

theorem editDistance_eq_zero_iff : editDistance as bs = 0 ↔ as = bs := by
  rw [editDistance_eq, distanceFromEnd_eq_zero_iff, List.reverse_inj]

theorem editDistance_le_max (as bs : List Char) :
    editDistance as bs ≤ max as.length bs.length := by
  simpa [editDistance_eq] using distanceFromEnd_le_max as.reverse bs.reverse

theorem length_le_add_editDistance (as bs : List Char) :
    as.length ≤ bs.length + editDistance as bs := by
  simpa [editDistance_eq] using length_le_add_distanceFromEnd as.reverse bs.reverse

/-! ### Rounding -/

/-- More than a half is rounded up. -/
theorem roundDiv_pos {num den : Nat} (hden : 0 < den) (h : den < 2 * num) :
    0 < roundDiv num den := by
  have hround : 2 * num ≤ 2 * (roundDiv num den * den) + den := le_roundDiv hden
  by_contra hzero
  rw [Nat.eq_zero_of_not_pos hzero] at hround
  omega

/-- Only zero is rounded to zero. -/
theorem Binary64.ofRatio_eq_zero_iff {num den : Nat} (hden : 0 < den) :
    ofRatio num den = zero ↔ num = 0 := by
  constructor
  · intro h
    by_contra hnum
    have hshifted : 0 < den <<< num.log2 := by
      rw [Nat.shiftLeft_eq]
      exact Nat.mul_pos hden (Nat.two_pow_pos _)
    have hlt : den <<< num.log2 < 2 * (num <<< den.log2) := by
      rw [Nat.shiftLeft_eq, Nat.shiftLeft_eq]
      calc den * 2 ^ num.log2 < 2 ^ (den.log2 + 1) * num :=
            Nat.mul_lt_mul_of_lt_of_le Nat.lt_log2_self (Nat.log2_self_le hnum)
              (Nat.pos_of_ne_zero hnum)
        _ = 2 * (num * 2 ^ den.log2) := by
            rw [Nat.pow_succ]
            ac_rfl
    -- Whatever the number of places, the significand is more than a half.
    have hround (places : Nat) :
        0 < roundDiv (num <<< (places + den.log2)) (den <<< num.log2) := by
      refine roundDiv_pos hshifted (hlt.trans_le (Nat.mul_le_mul_left 2 ?_))
      rw [Nat.shiftLeft_eq, Nat.shiftLeft_eq]
      exact Nat.mul_le_mul_left num (Nat.pow_le_pow_right Nat.two_pos (Nat.le_add_left _ _))
    have hbits := congrArg bits h
    simp only [ofRatio, if_neg hnum, zero] at hbits
    split at hbits
    · exact Nat.ne_of_gt (hround 52) (Nat.eq_zero_of_add_eq_zero_left hbits)
    · exact Nat.ne_of_gt (hround 53) (Nat.eq_zero_of_add_eq_zero_left hbits)
  · rintro rfl
    rfl

/-! ### The score -/

namespace Suggest

variable {query candidate : String}

/-- The score of two texts before it is rounded. For two texts without characters it is the ratio
    of two zeros, which is zero here. -/
def exactScore (query candidate : String) : ℚ :=
  (scoreRatio query candidate).1 / (scoreRatio query candidate).2

theorem longest_comm (query candidate : String) :
    longest query candidate = longest candidate query :=
  Nat.max_comm _ _

/-- The ratio that a score rounds prefers neither text. -/
theorem scoreRatio_comm (query candidate : String) :
    scoreRatio query candidate = scoreRatio candidate query := by
  rw [scoreRatio, scoreRatio, editDistance_comm, longest_comm]

/-- The numerator of the ratio is zero for equal texts only. -/
theorem fst_scoreRatio_eq_zero_iff :
    (scoreRatio query candidate).1 = 0 ↔ query = candidate := by
  rw [← String.toList_inj, ← editDistance_eq_zero_iff]
  exact Nat.mul_eq_zero.trans (or_iff_left (by decide))

/-- Texts without characters, for which there is no ratio, are equal. -/
theorem eq_of_longest_eq_zero (h : longest query candidate = 0) : query = candidate := by
  obtain ⟨hquery, hcandidate⟩ := Nat.max_eq_zero_iff.1 h
  rw [← String.toList_inj, List.eq_nil_of_length_eq_zero hquery,
    List.eq_nil_of_length_eq_zero hcandidate]

/-- A score of zero is that of equal texts and of no others: no other ratio is so small that it is
    rounded to zero. -/
theorem score_eq_zero_iff : score query candidate = Binary64.zero ↔ query = candidate := by
  rw [score]
  split
  · next hzero => exact iff_of_true rfl (eq_of_longest_eq_zero hzero)
  · next hlong =>
    exact (Binary64.ofRatio_eq_zero_iff (Nat.pos_of_ne_zero hlong)).trans fst_scoreRatio_eq_zero_iff

theorem score_comm (query candidate : String) : score query candidate = score candidate query := by
  rw [score, score, longest_comm, scoreRatio_comm]

/-- Before it is rounded the score is zero for equal texts only as well. -/
theorem exactScore_eq_zero_iff : exactScore query candidate = 0 ↔ query = candidate := by
  rw [exactScore, div_eq_zero_iff, Nat.cast_eq_zero, Nat.cast_eq_zero, fst_scoreRatio_eq_zero_iff]
  exact or_iff_left_of_imp eq_of_longest_eq_zero

/-- No score is more than a hundred, as no distance is more than the length of the longer text. -/
theorem exactScore_le (query candidate : String) : exactScore query candidate ≤ 100 := by
  refine div_le_of_le_mul₀ (Nat.cast_nonneg _) (by norm_num) ?_
  have hle := editDistance_le_max query.toList candidate.toList
  exact_mod_cast (Nat.mul_comm _ 100 ▸ Nat.mul_le_mul_left 100 hle)

/-- What the score of two texts and the distance behind it are like. -/
structure IsGraded (query candidate : String) : Prop where
  /-- No score is negative. -/
  score_nonneg : 0 ≤ exactScore query candidate
  /-- No score is more than a hundred. -/
  score_le : exactScore query candidate ≤ 100
  /-- Equal texts have the score zero, and only these. -/
  score_eq_zero : exactScore query candidate = 0 ↔ query = candidate
  /-- It does not matter which text is the query. -/
  score_comm : exactScore query candidate = exactScore candidate query
  /-- Rounding leaves both as they are. -/
  rounded_eq_zero : score query candidate = Binary64.zero ↔ query = candidate
  rounded_comm : score query candidate = score candidate query
  /-- A way through a third text is no shorter. -/
  triangle : ∀ between : String,
    editDistance query.toList candidate.toList ≤
      editDistance query.toList between.toList + editDistance between.toList candidate.toList
  /-- What one text has more of has to be inserted or removed. -/
  length_le : max query.toList.length candidate.toList.length -
    min query.toList.length candidate.toList.length ≤ editDistance query.toList candidate.toList
  /-- The distance is no more than the length of the longer text. -/
  le_length : editDistance query.toList candidate.toList ≤
    max query.toList.length candidate.toList.length

/-- What holds of edits and of the distance comes to this for any two texts. -/
theorem isGraded (query candidate : String) : IsGraded query candidate where
  score_nonneg := div_nonneg (Nat.cast_nonneg _) (Nat.cast_nonneg _)
  score_le := exactScore_le query candidate
  score_eq_zero := exactScore_eq_zero_iff
  score_comm := by rw [exactScore, exactScore, scoreRatio_comm]
  rounded_eq_zero := score_eq_zero_iff
  rounded_comm := Suggest.score_comm query candidate
  triangle between := editDistance_triangle _ _ _
  length_le := by
    have hleft := length_le_add_editDistance query.toList candidate.toList
    have hright := length_le_add_editDistance candidate.toList query.toList
    rw [editDistance_comm] at hright
    omega
  le_length := editDistance_le_max _ _

example : exactScore "abc" "xyz" = 100 := by decide +kernel

end Suggest

end SymbolPaths
