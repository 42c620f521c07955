/-!
# Pieces and lines

A text is cut at a delimiter into pieces, of which there is always at least
one, and pieces are joined again with a delimiter between them. Lines are the
pieces between line feeds; the last one counts only if it is not empty.

* `join_pieces`: joining the pieces of a text gives the text back;
* `pieces_join`: pieces without the delimiter survive being joined and cut.
-/

namespace SymbolPaths.Text

/-- The pieces of a text between occurrences of the delimiter `d`. -/
def pieces (d : Char) : List Char → List (List Char)
  | [] => [[]]
  | c :: cs =>
    if c = d then [] :: pieces d cs
    else match pieces d cs with
      | [] => [[c]]
      | p :: ps => (c :: p) :: ps

/-- The pieces with the delimiter `d` between them. -/
def join (d : Char) : List (List Char) → List Char
  | [] => []
  | [p] => p
  | p :: q :: ps => p ++ d :: join d (q :: ps)

/-- The text without one carriage return at its end. -/
def dropReturn (line : List Char) : List Char :=
  if line.getLast? = some '\r' then line.dropLast else line

/-- The lines among the pieces of a text: all but the last were ended by a line
    feed, before which a carriage return does not count; the last one is a line
    only if it is not empty. -/
def linesOfPieces : List (List Char) → List (List Char)
  | [] => []
  | [p] => if p = [] then [] else [p]
  | p :: q :: ps => dropReturn p :: linesOfPieces (q :: ps)

/-- The lines of a text. -/
def lines (cs : List Char) : List (List Char) := linesOfPieces (pieces '\n' cs)

theorem pieces_ne_nil (d : Char) (cs : List Char) : pieces d cs ≠ [] := by
  cases cs with
  | nil => simp [pieces]
  | cons c cs =>
    simp only [pieces]
    split
    · simp
    · split <;> simp

theorem join_cons_cons (d c : Char) (p : List Char) (ps : List (List Char)) :
    join d ((c :: p) :: ps) = c :: join d (p :: ps) := by
  cases ps <;> simp [join]

theorem join_pieces (d : Char) (cs : List Char) : join d (pieces d cs) = cs := by
  induction cs with
  | nil => rfl
  | cons c cs ih =>
    simp only [pieces]
    split
    · next h =>
      cases hp : pieces d cs with
      | nil => exact absurd hp (pieces_ne_nil d cs)
      | cons p ps => rw [hp] at ih; simp [join, ih, h]
    · split
      · next h => exact absurd h (pieces_ne_nil d cs)
      · next p ps h => rw [h] at ih; rw [join_cons_cons, ih]

theorem join_concat_nil (d : Char) {ps : List (List Char)} (hne : ps ≠ []) :
    join d (ps ++ [[]]) = join d ps ++ [d] := by
  induction ps with
  | nil => exact absurd rfl hne
  | cons p ps ih =>
    cases ps with
    | nil => rfl
    | cons q ps =>
      have htail : join d (q :: ps ++ [[]]) = join d (q :: ps) ++ [d] := ih (List.cons_ne_nil q ps)
      calc join d (p :: q :: ps ++ [[]]) = p ++ d :: join d (q :: ps ++ [[]]) := rfl
        _ = p ++ d :: (join d (q :: ps) ++ [d]) := by rw [htail]
        _ = join d (p :: q :: ps) ++ [d] := by rw [join, List.append_assoc, List.cons_append]

theorem notMem_of_mem_pieces {d : Char} {cs line : List Char} (h : line ∈ pieces d cs) :
    d ∉ line := by
  induction cs generalizing line with
  | nil =>
    rw [pieces, List.mem_singleton] at h
    simp [h]
  | cons c cs ih =>
    rw [pieces] at h
    split at h
    · rcases List.mem_cons.1 h with rfl | h
      · exact List.not_mem_nil
      · exact ih h
    · next hc =>
      cases hp : pieces d cs with
      | nil => exact absurd hp (pieces_ne_nil d cs)
      | cons p ps =>
        rw [hp] at h ih
        rcases List.mem_cons.1 h with rfl | h
        · rw [List.mem_cons, not_or]
          exact ⟨Ne.symm hc, ih List.mem_cons_self⟩
        · exact ih (List.mem_cons_of_mem p h)

theorem mem_of_mem_pieces {d : Char} {cs line : List Char} (h : line ∈ pieces d cs) {c : Char}
    (hc : c ∈ line) : c ∈ cs := by
  have hjoin {ls : List (List Char)} (h : line ∈ ls) : c ∈ join d ls := by
    fun_induction join d ls with
    | case1 => cases h
    | case2 p => exact List.mem_singleton.1 h ▸ hc
    | case3 p q ps ih =>
      rcases List.mem_cons.1 h with rfl | h
      · exact List.mem_append_left _ hc
      · exact List.mem_append_right _ (List.mem_cons_of_mem d (ih h))
  exact join_pieces d cs ▸ hjoin h

theorem pieces_append_cons {d : Char} {p : List Char} (h : d ∉ p) (cs : List Char) :
    pieces d (p ++ d :: cs) = p :: pieces d cs := by
  induction p with
  | nil => simp [pieces]
  | cons c p ih =>
    rw [List.mem_cons, not_or] at h
    simp [pieces, Ne.symm h.1, ih h.2]

theorem pieces_append_delimiter (d : Char) (p cs : List Char) :
    pieces d (p ++ d :: cs) = pieces d p ++ pieces d cs := by
  induction p with
  | nil => simp [pieces]
  | cons c p ih =>
    simp only [List.cons_append, pieces, ih]
    split
    · rfl
    · cases hp : pieces d p with
      | nil => exact absurd hp (pieces_ne_nil d p)
      | cons q qs => rfl

theorem pieces_of_not_mem {d : Char} {p : List Char} (h : d ∉ p) : pieces d p = [p] := by
  induction p with
  | nil => rfl
  | cons c p ih =>
    rw [List.mem_cons, not_or] at h
    simp [pieces, Ne.symm h.1, ih h.2]

theorem pieces_join {d : Char} {ps : List (List Char)} (hne : ps ≠ [])
    (h : ∀ p ∈ ps, d ∉ p) : pieces d (join d ps) = ps := by
  induction ps with
  | nil => exact absurd rfl hne
  | cons p ps ih =>
    cases ps with
    | nil => exact pieces_of_not_mem (h p List.mem_cons_self)
    | cons q ps =>
      rw [join, pieces_append_cons (h p List.mem_cons_self),
        ih (List.cons_ne_nil q ps) fun x hx => h x (List.mem_cons_of_mem p hx)]

end SymbolPaths.Text
