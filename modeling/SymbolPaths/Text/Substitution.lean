/-!
# Substitution

Every occurrence of a marker in a text is replaced, from left to right; what
is put in is not searched again.

* `substitute_of_not_occurs`: a text without the marker stays as it is.
-/

namespace SymbolPaths.Text

/-- Whether the marker stands somewhere in the text. -/
def occurs (marker : List Char) : List Char → Bool
  | [] => marker.isEmpty
  | c :: cs => marker.isPrefixOf (c :: cs) || occurs marker cs

/-- The text with `value` in place of every occurrence of the marker, which
    must not be empty. -/
def substitute (marker value : List Char) : List Char → List Char
  | [] => []
  | c :: cs =>
    if marker.isPrefixOf (c :: cs) then
      value ++ substitute marker value (cs.drop (marker.length - 1))
    else c :: substitute marker value cs
termination_by cs => cs.length
decreasing_by all_goals simp only [List.length_drop, List.length_cons]; omega

theorem substitute_of_not_occurs {marker cs : List Char} (value : List Char)
    (h : occurs marker cs = false) : substitute marker value cs = cs := by
  induction cs with
  | nil => rw [substitute]
  | cons c cs ih =>
    rw [occurs, Bool.or_eq_false_iff] at h
    rw [substitute, if_neg (by simp [h.1]), ih h.2]

end SymbolPaths.Text
