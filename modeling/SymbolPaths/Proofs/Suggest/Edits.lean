import Mathlib.Order.Bounds.Basic
import SymbolPaths.Suggest.EditDistance

/-!
# Edits

A text is made into another by edits: a character is inserted, removed or replaced. The
distance of two texts is the smallest number of edits that do it. The table of distances does
not speak of edits at all, so two things lie between them: the rows of the table have, for each
beginning of the second text, what a recursion gives on the last characters of two beginnings
(`distanceFromEnd`); and that recursion gives the smallest number of edits, since it goes
through edits itself, and no edit changes it by more than one.

* `Edits.append`, `Edits.symm`, `Edits.reverse`: edits one after another, taken back, and from
  the other end;
* `foldl_nextRow`: the rows of the table;
* `edits_distanceFromEnd` and `distanceFromEnd_le_of_edits`: so many edits are enough, and needed;
* `isLeast_editDistance`: the distance of two texts.

Rows are built from the front of the texts and the recursion takes the last characters off, so the
recursion is stated for texts that are given from their ends. That it needs no more edits than
there are is the harder half: an edit may be anywhere in a text, and the recursion sees the ends
only. There the induction is on both texts, and each step compares what the recursion gives for
neighbouring texts, which never differs by more than one.
-/

namespace SymbolPaths

/-- Whether one edit makes one text of another. -/
inductive Edit : List Char → List Char → Prop
  /-- A character is inserted. -/
  | insert (before : List Char) (c : Char) (after : List Char) :
      Edit (before ++ after) (before ++ c :: after)
  /-- A character is removed. -/
  | remove (before : List Char) (c : Char) (after : List Char) :
      Edit (before ++ c :: after) (before ++ after)
  /-- A character is replaced. -/
  | replace (before : List Char) (c d : Char) (after : List Char) :
      Edit (before ++ c :: after) (before ++ d :: after)

/-- Whether so many edits, one after another, make one text of another. -/
inductive Edits : Nat → List Char → List Char → Prop
  /-- Without edits the text stays what it is. -/
  | none (cs : List Char) : Edits 0 cs cs
  /-- One edit, and as many as remain. -/
  | next {n : Nat} {as bs cs : List Char} : Edit as bs → Edits n bs cs → Edits (n + 1) as cs

variable {as bs cs ds : List Char} {n m : Nat}

namespace Edit

/-- Every edit can be taken back: what was inserted is removed. -/
theorem symm (h : Edit as bs) : Edit bs as := by
  cases h with
  | insert before c after => exact .remove before c after
  | remove before c after => exact .insert before c after
  | replace before c d after => exact .replace before d c after

/-- From the other end an edit is an edit as well. -/
theorem reverse (h : Edit as bs) : Edit as.reverse bs.reverse := by
  cases h with
  | insert before c after => simpa using Edit.insert after.reverse c before.reverse
  | remove before c after => simpa using Edit.remove after.reverse c before.reverse
  | replace before c d after => simpa using Edit.replace after.reverse c d before.reverse

/-- A character before both texts has no part in an edit. -/
theorem cons (h : Edit as bs) (c : Char) : Edit (c :: as) (c :: bs) := by
  cases h with
  | insert before d after => exact .insert (c :: before) d after
  | remove before d after => exact .remove (c :: before) d after
  | replace before d e after => exact .replace (c :: before) d e after

end Edit

namespace Edits

/-- Edits that lead from one text to another can be followed by others from there. -/
theorem append (h : Edits n as bs) (h' : Edits m bs cs) : Edits (n + m) as cs := by
  induction h with
  | none => rwa [Nat.zero_add]
  | next hedit _ ih =>
    rw [Nat.add_right_comm]
    exact .next hedit (ih h')

theorem one (h : Edit as bs) : Edits 1 as bs := .next h (.none bs)

/-- Edits are taken back from the last one to the first. -/
theorem symm (h : Edits n as bs) : Edits n bs as := by
  induction h with
  | none => exact .none _
  | next hedit _ ih => exact ih.append (.one hedit.symm)

theorem reverse (h : Edits n as bs) : Edits n as.reverse bs.reverse := by
  induction h with
  | none => exact .none _
  | next hedit _ ih => exact .next hedit.reverse ih

/-- A character before both texts has no part in any number of edits. -/
theorem cons (h : Edits n as bs) (c : Char) : Edits n (c :: as) (c :: bs) := by
  induction h with
  | none => exact .none _
  | next hedit _ ih => exact .next (hedit.cons c) ih

end Edits

/-- Texts may be given from either end: the edits are as many. -/
theorem edits_reverse_iff : Edits n as.reverse bs.reverse ↔ Edits n as bs :=
  ⟨fun h => by simpa using h.reverse, .reverse⟩

namespace EditDistance

/-! ### A recursion on two texts -/

/-- The distance of two texts that are given from their ends: by their last characters, the
    cheapest of three ways to go on. -/
def distanceFromEnd : List Char → List Char → Nat
  | [], ds => ds.length
  | c :: cs, [] => cs.length + 1
  | c :: cs, d :: ds =>
    min (min (distanceFromEnd (c :: cs) ds + 1) (distanceFromEnd cs (d :: ds) + 1))
      (distanceFromEnd cs ds + if c = d then 0 else 1)
termination_by cs ds => cs.length + ds.length

theorem distanceFromEnd_nil_left (ds : List Char) : distanceFromEnd [] ds = ds.length := by
  rw [distanceFromEnd]

theorem distanceFromEnd_nil_right (cs : List Char) : distanceFromEnd cs [] = cs.length := by
  cases cs <;> simp [distanceFromEnd]

/-- A text is at no distance from itself. -/
theorem distanceFromEnd_self (cs : List Char) : distanceFromEnd cs cs = 0 := by
  induction cs with
  | nil => rw [distanceFromEnd_nil_left]; rfl
  | cons c cs ih => simp [distanceFromEnd, ih]

/-- So many edits are enough. -/
theorem edits_distanceFromEnd (cs ds : List Char) : Edits (distanceFromEnd cs ds) cs ds := by
  fun_induction distanceFromEnd cs ds with
  | case1 ds =>
    induction ds with
    | nil => exact .none []
    | cons d ds ih => exact ih.append (.one (.insert [] d ds))
  | case2 c cs =>
    induction cs generalizing c with
    | nil => exact .one (.remove [] c [])
    | cons d cs ih => exact .next (.remove [] c (d :: cs)) (ih d)
  | case3 c cs d ds hinsert hremove hkeep =>
    -- Whichever of the three is the least, it is a number of edits that do it.
    have hall : ∀ n ∈ [distanceFromEnd (c :: cs) ds + 1, distanceFromEnd cs (d :: ds) + 1,
        distanceFromEnd cs ds + if c = d then 0 else 1], Edits n (c :: cs) (d :: ds) := by
      simp only [List.mem_cons, List.not_mem_nil, or_false]
      rintro n (rfl | rfl | rfl)
      · exact hinsert.append (.one (.insert [] d ds))
      · exact .next (.remove [] c cs) hremove
      · split
        · next hcd => exact hcd ▸ hkeep.cons c
        · exact (hkeep.cons c).append (.one (.replace [] c d ds))
    refine hall _ ?_
    grind

/-- One more character on the first text takes it at most one edit further away. -/
theorem distanceFromEnd_cons_le (c : Char) (cs ds : List Char) :
    distanceFromEnd (c :: cs) ds ≤ distanceFromEnd cs ds + 1 := by
  cases ds with
  | nil => simp [distanceFromEnd_nil_right]
  | cons d ds =>
    rw [distanceFromEnd]
    omega

/-- So does one more character on the second text. -/
theorem distanceFromEnd_le_cons_right (cs : List Char) (d : Char) (ds : List Char) :
    distanceFromEnd cs (d :: ds) ≤ distanceFromEnd cs ds + 1 := by
  cases cs with
  | nil => simp [distanceFromEnd_nil_left]
  | cons c cs =>
    rw [distanceFromEnd]
    omega

/-- One character less brings a text at most one edit nearer. The induction is on the second text,
    as either text may lose its character first. -/
theorem distanceFromEnd_le_cons (c : Char) (cs ds : List Char) :
    distanceFromEnd cs ds ≤ distanceFromEnd (c :: cs) ds + 1 := by
  induction ds with
  | nil =>
    simp only [distanceFromEnd_nil_right, List.length_cons]
    omega
  | cons d ds ih =>
    have hright := distanceFromEnd_le_cons_right cs d ds
    rw [distanceFromEnd]
    omega

/-- A character that is replaced does so too, since either of the two costs at most one edit. -/
theorem distanceFromEnd_replace_le (c d : Char) (cs ds : List Char) :
    distanceFromEnd (c :: cs) ds ≤ distanceFromEnd (d :: cs) ds + 1 := by
  induction ds with
  | nil => simp [distanceFromEnd_nil_right]
  | cons e ds ih =>
    rw [distanceFromEnd, distanceFromEnd]
    split <;> omega

/-- What is near for all texts stays near behind one more character. -/
theorem distanceFromEnd_cons_mono (c : Char)
    (h : ∀ ds, distanceFromEnd as ds ≤ distanceFromEnd bs ds + 1) (ds : List Char) :
    distanceFromEnd (c :: as) ds ≤ distanceFromEnd (c :: bs) ds + 1 := by
  induction ds with
  | nil =>
    have hnil := h []
    simp only [distanceFromEnd_nil_right, List.length_cons] at hnil ⊢
    omega
  | cons d ds ih =>
    have hboth := h ds
    have hleft := h (d :: ds)
    rw [distanceFromEnd, distanceFromEnd]
    omega

/-- An edit brings a text no nearer to another one than by one. -/
theorem distanceFromEnd_le_of_edit (h : Edit as bs) (ds : List Char) :
    distanceFromEnd as ds ≤ distanceFromEnd bs ds + 1 := by
  cases h with
  | insert before c after =>
    induction before generalizing ds with
    | nil => exact distanceFromEnd_le_cons c after ds
    | cons b before ih => exact distanceFromEnd_cons_mono b ih ds
  | remove before c after =>
    induction before generalizing ds with
    | nil => exact distanceFromEnd_cons_le c after ds
    | cons b before ih => exact distanceFromEnd_cons_mono b ih ds
  | replace before c d after =>
    induction before generalizing ds with
    | nil => exact distanceFromEnd_replace_le c d after ds
    | cons b before ih => exact distanceFromEnd_cons_mono b ih ds

/-- So many edits are needed. -/
theorem distanceFromEnd_le_of_edits (h : Edits n as bs) : distanceFromEnd as bs ≤ n := by
  induction h with
  | none cs => exact Nat.le_of_eq (distanceFromEnd_self cs)
  | @next n as bs cs hedit _ ih => exact (distanceFromEnd_le_of_edit hedit cs).trans (by omega)

/-! ### The table -/

/-- The distances of a text from all beginnings of another one that have `ds` and may have more,
    both texts being given from their ends. -/
def distances (cs ds : List Char) : List Char → List Nat
  | [] => [distanceFromEnd cs ds]
  | e :: es => distanceFromEnd cs ds :: distances cs (e :: ds) es

theorem distances_eq_cons (cs ds es : List Char) :
    ∃ above, distances cs ds es = distanceFromEnd cs ds :: above := by
  cases es <;> exact ⟨_, rfl⟩

/-- A row is what the recursion says, entry by entry: each entry is made from the one before it and
    from two of the row above, which are the three ways to go on. -/
theorem extendRow_distances (c : Char) (cs ds es : List Char) :
    distanceFromEnd (c :: cs) ds :: extendRow c (distanceFromEnd (c :: cs) ds) es
      (distances cs ds es) = distances (c :: cs) ds es := by
  induction es generalizing ds with
  | nil => rfl
  | cons e es ih =>
    obtain ⟨above, habove⟩ := distances_eq_cons cs (e :: ds) es
    have hentry : min (min (distanceFromEnd (c :: cs) ds + 1) (distanceFromEnd cs (e :: ds) + 1))
        (distanceFromEnd cs ds + if c = e then 0 else 1) =
          distanceFromEnd (c :: cs) (e :: ds) := by
      rw [distanceFromEnd]
    rw [distances, distances, habove, extendRow, hentry, ← habove, ih]

/-- From the empty beginning all characters of the other text are inserted. -/
theorem firstRow_eq (target : List Char) : firstRow target = distances [] [] target := by
  have hrange (ds es : List Char) :
      distances [] ds es = List.range' ds.length (es.length + 1) := by
    induction es generalizing ds with
    | nil => rw [distances, distanceFromEnd_nil_left]; rfl
    | cons e es ih =>
      rw [distances, ih, distanceFromEnd_nil_left, List.length_cons, List.length_cons]
      rfl
  rw [hrange, firstRow, List.range_eq_range']
  rfl

/-- After each beginning of the first text the row has its distances from all beginnings of
    the second. -/
theorem foldl_nextRow (target cs source : List Char) :
    source.foldl (nextRow target) (distances cs [] target) =
      distances (source.reverse ++ cs) [] target := by
  induction source generalizing cs with
  | nil => rfl
  | cons c source ih =>
    have hnext : nextRow target (distances cs [] target) c = distances (c :: cs) [] target := by
      obtain ⟨above, habove⟩ := distances_eq_cons cs [] target
      have hfirst : distanceFromEnd cs [] + 1 = distanceFromEnd (c :: cs) [] := by
        rw [distanceFromEnd_nil_right, distanceFromEnd_nil_right, List.length_cons]
      rw [← extendRow_distances, ← hfirst, habove]
      rfl
    rw [List.foldl_cons, hnext, ih, List.reverse_cons, List.append_assoc]
    rfl

/-- The last entry of a row is for the whole second text. -/
theorem getLastD_distances (cs ds es : List Char) :
    (distances cs ds es).getLastD 0 = distanceFromEnd cs (es.reverse ++ ds) := by
  induction es generalizing ds with
  | nil => rfl
  | cons e es ih =>
    obtain ⟨above, habove⟩ := distances_eq_cons cs (e :: ds) es
    rw [List.reverse_cons, List.append_assoc, List.singleton_append, ← ih, distances, habove]
    rfl

end EditDistance

/-- What the table gives is what the recursion gives, for texts given from their ends. -/
theorem editDistance_eq (source target : List Char) :
    editDistance source target =
      EditDistance.distanceFromEnd source.reverse target.reverse := by
  rw [editDistance, EditDistance.firstRow_eq, EditDistance.foldl_nextRow,
    EditDistance.getLastD_distances, List.append_nil, List.append_nil]

/-- The distance of two texts is the smallest number of edits that make one of the other. -/
theorem isLeast_editDistance (source target : List Char) :
    IsLeast {n | Edits n source target} (editDistance source target) := by
  rw [editDistance_eq]
  constructor
  · exact edits_reverse_iff.1 (EditDistance.edits_distanceFromEnd ..)
  · exact fun n hn => EditDistance.distanceFromEnd_le_of_edits (edits_reverse_iff.2 hn)

example : editDistance "kitten".toList "sitting".toList = 3 := by decide

end SymbolPaths
