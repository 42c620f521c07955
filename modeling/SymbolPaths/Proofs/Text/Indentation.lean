import Mathlib.Data.List.Basic
import Mathlib.Data.List.TakeWhile
import SymbolPaths.Text.Indentation

/-!
# Common indentation

The lines of a text with something on them have a margin: the longest blanks that all of them
begin with. What is taken off the lines is found line by line, and there the blank lines have a
say, as far as they come after the first line with ink: where one of them departs from the
indentation found so far, that is cut short. So it is the margin only if they all agree with it.

* `prefix_commonIndent_iff`, `prefix_margin_iff`: what is taken off, and what the margin is;
* `dedent_eq`: each line loses what is taken off, or comes out empty, and the lines are put
  together again (`ofLines_lines`);
* `isDedented_dedent`: when that is the text without its margin (`IsDedented`);
* `dedent_ne_of_blank_line`: a blank line that keeps the margin of the others from being taken
  off.

Lines are taken in their order, with the indentation found so far. A line with ink cuts it to what
both begin with. A blank line is compared in the same way but only as far as it goes, so one that
is too short does no harm, while one with other blanks in it does. To say what comes of that
without the order, it is characterised by its beginnings: some blanks are a beginning of what is
taken off if and only if every line that has a say agrees with them.
-/

namespace SymbolPaths.Text

variable {cs line indent p q : List Char} {ls : List (List Char)}

/-! ### Margins -/

/-- Whether all lines with ink begin with some blanks. Where no line has ink, only no blanks at all
    count. -/
structure IsMargin (ls : List (List Char)) (blanks : List Char) : Prop where
  /-- It consists of blanks. -/
  isBlank : ∀ c ∈ blanks, isBlank c
  /-- All lines with something on them begin with it. -/
  isPrefix : ∀ l ∈ ls, hasInk l → blanks <+: l
  /-- Without such lines there is none. -/
  eq_nil : (∀ l ∈ ls, hasInk l = false) → blanks = []

/-- The longest blanks that all lines with ink begin with: those that are taken off where all
    lines have ink. -/
def margin (ls : List (List Char)) : List Char := commonIndent (ls.filter hasInk)

/-- Whether a line begins with some blanks, or ends before they do. -/
def Agrees (line blanks : List Char) : Prop := blanks <+: line ∨ line <+: blanks

instance (line blanks : List Char) : Decidable (Agrees line blanks) :=
  inferInstanceAs (Decidable (_ ∨ _))

/-- The lines without ink that come after the first one with ink. -/
def lateBlanks (ls : List (List Char)) : List (List Char) :=
  (ls.dropWhile fun l => !hasInk l).filter fun l => !hasInk l

/-- A line with which some blanks do not agree cuts the indentation short just before them: what is
    left are the blanks with which the line agrees. -/
theorem prefix_narrow_iff : q <+: narrow indent line ↔ q <+: indent ∧ Agrees line q := by
  fun_induction narrow indent line generalizing q with
  | case1 i indent line ih =>
    cases q with
    | nil => simp [Agrees]
    | cons c q =>
      simp only [List.cons_prefix_cons, ih, Agrees]
      grind
  | case2 i indent c line hne =>
    cases q with
    | nil => simp [Agrees]
    | cons d q =>
      simp only [List.cons_prefix_cons, Agrees]
      grind
  | case3 indent line hend =>
    refine ⟨fun h => ⟨h, ?_⟩, And.left⟩
    cases line with
    | nil => exact .inr List.nil_prefix
    | cons c line =>
      cases indent with
      | nil => exact .inl (List.prefix_nil.1 h ▸ List.nil_prefix)
      | cons i indent => exact (hend i indent c line rfl rfl).elim

/-- After several lines those blanks are left with which all of them agree. -/
theorem prefix_foldl_narrow_iff :
    q <+: ls.foldl narrow indent ↔ q <+: indent ∧ ∀ l ∈ ls, Agrees l q := by
  induction ls generalizing indent with
  | nil => simp
  | cons l ls ih =>
    rw [List.foldl_cons, ih, prefix_narrow_iff, List.forall_mem_cons, and_assoc]

/-- A line begins with some blanks exactly if its indentation does. -/
theorem prefix_takeWhile_iff :
    q <+: line.takeWhile isBlank ↔ (∀ c ∈ q, isBlank c) ∧ q <+: line := by
  constructor
  · intro h
    exact ⟨fun c hc => List.mem_takeWhile_imp (h.subset hc), h.trans (List.takeWhile_prefix _)⟩
  · rintro ⟨hblank, rest, rfl⟩
    rw [List.takeWhile_append_of_pos hblank]
    exact List.prefix_append q _

/-- A line with ink does not end before blanks do. -/
theorem agrees_iff_of_hasInk (hblank : ∀ c ∈ q, isBlank c) (hink : hasInk line) :
    Agrees line q ↔ q <+: line := by
  refine or_iff_left fun h => ?_
  obtain ⟨c, hc, hnot⟩ := List.any_eq_true.1 hink
  rw [hblank c (h.subset hc)] at hnot
  cases hnot

/-- What is taken off is the longest margin with which the late blank lines agree. The first line
    with ink gives the indentation that the lines after it narrow; blank lines before it have no
    say. -/
theorem prefix_commonIndent_iff :
    q <+: commonIndent ls ↔ IsMargin ls q ∧ ∀ l ∈ lateBlanks ls, Agrees l q := by
  rw [commonIndent, lateBlanks]
  cases h : ls.dropWhile fun l => !hasInk l with
  | nil =>
    have hnone : ∀ l ∈ ls, hasInk l = false := by simpa using List.dropWhile_eq_nil_iff.1 h
    rw [List.prefix_nil]
    refine ⟨?_, fun hq => hq.1.eq_nil hnone⟩
    rintro rfl
    exact ⟨⟨by simp, fun l hl hink => List.nil_prefix, fun _ => rfl⟩, by simp⟩
  | cons first rest =>
    have hfirst : hasInk first := by
      have hhead := List.head_dropWhile_not (fun l => !hasInk l) (by rw [h]; simp)
      simpa [h] using hhead
    -- A line with ink is the first one, or comes after it.
    have hmem (l : List Char) (hink : hasInk l) : l ∈ ls ↔ l = first ∨ l ∈ rest := by
      rw [← List.takeWhile_append_dropWhile (p := fun l => !hasInk l) (l := ls), h,
        List.mem_append, List.mem_cons, or_iff_right]
      exact fun hl => by simpa [hink] using List.mem_takeWhile_imp hl
    rw [prefix_foldl_narrow_iff, prefix_takeWhile_iff]
    constructor
    · rintro ⟨⟨hblank, hprefix⟩, hrest⟩
      refine ⟨⟨hblank, fun l hl hink => ?_, fun hnone => ?_⟩, fun l hl => ?_⟩
      · rcases (hmem l hink).1 hl with rfl | hl
        · exact hprefix
        · exact (agrees_iff_of_hasInk hblank hink).1 (hrest l hl)
      · rw [hnone first ((hmem first hfirst).2 (.inl rfl))] at hfirst
        cases hfirst
      · rw [List.filter_cons_of_neg (by simp [hfirst])] at hl
        exact hrest l (List.mem_filter.1 hl).1
    · rintro ⟨hq, hlate⟩
      refine ⟨⟨hq.isBlank, hq.isPrefix first ((hmem first hfirst).2 (.inl rfl)) hfirst⟩,
        fun l hl => ?_⟩
      cases hink : hasInk l with
      | true => exact .inl (hq.isPrefix l ((hmem l hink).2 (.inr hl)) hink)
      | false =>
        exact hlate l (List.mem_filter.2 ⟨List.mem_cons_of_mem first hl, by simp [hink]⟩)

/-- Lines without ink do not matter for what a margin is. -/
theorem isMargin_filter_iff : IsMargin (ls.filter hasInk) q ↔ IsMargin ls q := by
  have hnone : (∀ l ∈ ls.filter hasInk, hasInk l = false) ↔ ∀ l ∈ ls, hasInk l = false := by
    simp only [List.mem_filter]
    grind
  refine ⟨fun h => ⟨h.isBlank, fun l hl hink => ?_, fun hls => h.eq_nil (hnone.2 hls)⟩,
    fun h => ⟨h.isBlank, fun l hl hink => ?_, fun hls => h.eq_nil (hnone.1 hls)⟩⟩
  · exact h.isPrefix l (List.mem_filter.2 ⟨hl, hink⟩) hink
  · exact h.isPrefix l (List.mem_filter.1 hl).1 hink

/-- The margin is the longest one: all others are its beginnings. -/
theorem prefix_margin_iff : q <+: margin ls ↔ IsMargin ls q := by
  rw [margin, prefix_commonIndent_iff, isMargin_filter_iff]
  refine and_iff_left fun l hl => ?_
  -- Of lines that all have ink none is blank.
  obtain ⟨hl, hblank⟩ := List.mem_filter.1 hl
  have hink := (List.mem_filter.1 ((List.dropWhile_sublist _).subset hl)).2
  simp [hink] at hblank

theorem isMargin_margin (ls : List (List Char)) : IsMargin ls (margin ls) :=
  prefix_margin_iff.1 (List.prefix_refl _)

/-- What is taken off is a margin, if not always the longest. -/
theorem isMargin_commonIndent (ls : List (List Char)) : IsMargin ls (commonIndent ls) :=
  (prefix_commonIndent_iff.1 (List.prefix_refl _)).1

/-- What is taken off is the margin exactly if the late blank lines agree with it. -/
theorem commonIndent_eq_margin_iff :
    commonIndent ls = margin ls ↔ ∀ l ∈ lateBlanks ls, Agrees l (margin ls) := by
  constructor
  · intro h
    rw [← h]
    exact (prefix_commonIndent_iff.1 (List.prefix_refl _)).2
  · intro h
    have hle := prefix_margin_iff.2 (isMargin_commonIndent ls)
    have hge := prefix_commonIndent_iff.2 ⟨isMargin_margin ls, h⟩
    exact hle.eq_of_length (Nat.le_antisymm hle.length_le hge.length_le)

/-! ### Lines put together -/

/-- Lines as a text, with a line feed after each, or after each but the last. -/
def ofLines (ended : Bool) (ls : List (List Char)) : List Char :=
  join '\n' ls ++ if ended then ['\n'] else []

/-- Whether the last line of a text is ended. -/
def isEnded (cs : List Char) : Bool := cs.getLast? = some '\n'

/-- Only the last piece has no line feed after it, so it is a line only if something is on it. -/
theorem linesOfPieces_append_singleton (ps : List (List Char)) (p : List Char) :
    linesOfPieces (ps ++ [p]) = ps.map dropReturn ++ if p = [] then [] else [p] := by
  induction ps with
  | nil => rfl
  | cons q ps ih =>
    cases ps with
    | nil => rfl
    | cons r ps =>
      rw [List.cons_append, List.cons_append, linesOfPieces, ← List.cons_append, ih]
      rfl

/-- The last piece is what a text ends with. -/
theorem suffix_join (d : Char) (ps : List (List Char)) (p : List Char) :
    p <:+ join d (ps ++ [p]) := by
  induction ps with
  | nil => exact List.suffix_refl p
  | cons q ps ih =>
    cases ps with
    | nil => exact (List.suffix_cons d p).trans (List.suffix_append q _)
    | cons r ps => exact ih.trans ((List.suffix_cons d _).trans (List.suffix_append q _))

/-- The lines of a text are its pieces, but for the last one if that is empty. -/
theorem exists_pieces_eq (cs : List Char) : ∃ front last, pieces '\n' cs = front ++ [last] ∧
    lines cs = front.map dropReturn ++ (if last = [] then [] else [last]) ∧
    (isEnded cs = true ↔ last = [] ∧ front ≠ []) := by
  obtain ⟨front, last, hpieces⟩ :=
    (List.eq_nil_or_concat' (pieces '\n' cs)).resolve_left (pieces_ne_nil '\n' cs)
  refine ⟨front, last, hpieces, ?_, ?_⟩
  · rw [lines, hpieces, linesOfPieces_append_singleton]
  · have hjoin := join_pieces '\n' cs
    rw [hpieces] at hjoin
    rw [isEnded, decide_eq_true_eq, ← hjoin]
    by_cases hlast : last = []
    · subst hlast
      by_cases hfront : front = []
      · subst hfront
        simp [join]
      · simp [join_concat_nil '\n' hfront, hfront]
    · obtain ⟨rest, hrest⟩ := suffix_join '\n' front last
      rw [← hrest, List.getLast?_append_of_ne_nil rest hlast]
      refine iff_of_false (fun hfeed => ?_) (fun h => hlast h.1)
      have hmem : last ∈ pieces '\n' cs := by
        rw [hpieces]
        exact List.mem_append_right _ List.mem_cons_self
      exact notMem_of_mem_pieces hmem (List.mem_of_getLast? hfeed)

/-- No line feed is in a line. -/
theorem notMem_of_mem_lines (h : line ∈ lines cs) : '\n' ∉ line := by
  obtain ⟨front, last, hpieces, hlines, _⟩ := exists_pieces_eq cs
  rw [hlines, List.mem_append, List.mem_map] at h
  rcases h with ⟨piece, hpiece, rfl⟩ | h
  · have hnot : '\n' ∉ piece :=
      notMem_of_mem_pieces (hpieces ▸ List.mem_append_left _ hpiece)
    rw [dropReturn]
    split
    · exact fun hmem => hnot (List.dropLast_subset _ hmem)
    · exact hnot
  · split at h
    · cases h
    · rw [List.mem_singleton.1 h]
      exact notMem_of_mem_pieces (hpieces ▸ List.mem_append_right _ List.mem_cons_self)

/-- Only the empty text has no lines. -/
theorem lines_eq_nil_iff : lines cs = [] ↔ cs = [] := by
  constructor
  · intro h
    obtain ⟨front, last, hpieces, hlines, _⟩ := exists_pieces_eq cs
    rw [hlines, List.append_eq_nil_iff, List.map_eq_nil_iff] at h
    obtain ⟨rfl, hlast⟩ := h
    have hnil : last = [] := by simpa using hlast
    rw [← join_pieces '\n' cs, hpieces, hnil]
    rfl
  · rintro rfl
    rfl

/-- Lines that are put together fall apart into the same lines. -/
theorem pieces_ofLines (ended : Bool) (hne : ls ≠ []) (h : ∀ l ∈ ls, '\n' ∉ l) :
    pieces '\n' (ofLines ended ls) = ls ++ if ended then [[]] else [] := by
  cases ended with
  | true => exact (pieces_append_delimiter _ _ _).trans (by rw [pieces_join hne h]; rfl)
  | false => simp [ofLines, pieces_join hne h]

/-- Where lines end with a line feed only, they make up the text. -/
theorem ofLines_lines (hreturn : '\r' ∉ cs) : ofLines (isEnded cs) (lines cs) = cs := by
  obtain ⟨front, last, hpieces, hlines, hended⟩ := exists_pieces_eq cs
  have hkeep : front.map dropReturn = front := by
    refine (List.map_congr_left fun l hl => ?_).trans (List.map_id _)
    rw [dropReturn, if_neg, id]
    intro hlast
    exact hreturn (mem_of_mem_pieces (hpieces ▸ List.mem_append_left _ hl)
      (List.mem_of_getLast? hlast))
  have hjoin := join_pieces '\n' cs
  rw [hpieces] at hjoin
  rw [hkeep] at hlines
  by_cases hlast : last = []
  · subst hlast
    by_cases hfront : front = []
    · subst hfront
      simp [← hjoin, join, ofLines, isEnded, lines, pieces, linesOfPieces]
    · rw [ofLines, hended.2 ⟨rfl, hfront⟩, hlines, if_pos rfl, List.append_nil, if_pos rfl,
        ← join_concat_nil '\n' hfront, hjoin]
  · rw [ofLines, Bool.eq_false_iff.2 fun h => hlast (hended.1 h).1, hlines, if_neg hlast, hjoin]
    exact List.append_nil _

/-! ### Taking the indentation off -/

/-- A text whose lines with ink lose as much as some blanks have, and whose other lines come out
    empty. -/
def withoutMargin (blanks cs : List Char) : List Char :=
  ofLines (isEnded cs) ((lines cs).map fun l => if hasInk l then l.drop blanks.length else [])

theorem flatMap_append_singleton (d : Char) (f : List Char → List Char) (hne : ls ≠ []) :
    (ls.flatMap fun l => f l ++ [d]) = join d (ls.map f) ++ [d] := by
  induction ls with
  | nil => exact absurd rfl hne
  | cons l ls ih =>
    cases ls with
    | nil => simp [join]
    | cons k ls =>
      rw [List.flatMap_cons, ih (List.cons_ne_nil k ls)]
      simp [join]

/-- Each line with ink loses as many characters as are taken off, which are the same blanks on all
    of these lines. -/
theorem dedent_eq (cs : List Char) : dedent cs = withoutMargin (commonIndent (lines cs)) cs := by
  have hlines : (lines cs).map (dropIndent (commonIndent (lines cs))) =
      (lines cs).map fun l => if hasInk l then l.drop (commonIndent (lines cs)).length else [] := by
    refine List.map_congr_left fun l hl => ?_
    cases hink : hasInk l with
    | false => simp [dropIndent, hink]
    | true =>
      have hprefix := (isMargin_commonIndent (lines cs)).isPrefix l hl hink
      simp [dropIndent, hink, List.isPrefixOf_iff_prefix.2 hprefix]
  rw [withoutMargin, ← hlines]
  by_cases hcs : cs = []
  · subst hcs
    rfl
  · simp only [dedent, flatMap_append_singleton '\n' _ (mt lines_eq_nil_iff.1 hcs), ofLines,
      isEnded, decide_eq_true_eq]
    split
    · rfl
    · rw [List.dropLast_concat, List.append_nil]

/-- The lines of a text without a margin are those of the text without it. -/
theorem pieces_withoutMargin (blanks : List Char) (hcs : cs ≠ []) :
    pieces '\n' (withoutMargin blanks cs) =
      ((lines cs).map fun l => if hasInk l then l.drop blanks.length else []) ++
        if isEnded cs then [[]] else [] := by
  refine pieces_ofLines _ (by simpa using mt lines_eq_nil_iff.1 hcs) fun l hl => ?_
  obtain ⟨k, hk, rfl⟩ := List.mem_map.1 hl
  split
  · exact fun hmem => notMem_of_mem_lines hk (List.mem_of_mem_drop hmem)
  · exact List.not_mem_nil

/-- No line is lost with its margin, and none is added. -/
theorem length_pieces_withoutMargin (blanks cs : List Char) :
    (pieces '\n' (withoutMargin blanks cs)).length = (pieces '\n' cs).length := by
  by_cases hcs : cs = []
  · subst hcs
    rfl
  · obtain ⟨front, last, hpieces, hlines, hended⟩ := exists_pieces_eq cs
    rw [pieces_withoutMargin blanks hcs, hpieces]
    by_cases hlast : last = []
    · subst hlast
      have hfront : front ≠ [] := by
        rintro rfl
        exact hcs (lines_eq_nil_iff.1 hlines)
      simp [hlines, hended.2 ⟨rfl, hfront⟩]
    · simp [hlines, hlast, Bool.eq_false_iff.2 fun h => hlast (hended.1 h).1]

/-- No two margins of one text leave the same of it. -/
theorem withoutMargin_inj (hp : IsMargin (lines cs) p) (hq : IsMargin (lines cs) q) :
    withoutMargin p cs = withoutMargin q cs ↔ p = q := by
  refine ⟨fun h => ?_, fun h => h ▸ rfl⟩
  by_cases hnone : ∀ l ∈ lines cs, hasInk l = false
  · rw [hp.eq_nil hnone, hq.eq_nil hnone]
  · push Not at hnone
    obtain ⟨l, hl, hink⟩ := hnone
    rw [ne_eq, Bool.not_eq_false] at hink
    have hcs : cs ≠ [] := mt lines_eq_nil_iff.2 (List.ne_nil_of_mem hl)
    have hpieces := congrArg (pieces '\n') h
    rw [pieces_withoutMargin p hcs, pieces_withoutMargin q hcs, List.append_cancel_right_eq,
      List.map_eq_map_iff] at hpieces
    have hpl := hp.isPrefix l hl hink
    have hql := hq.isPrefix l hl hink
    have hlength : p.length = q.length := by
      have hdrop := congrArg List.length (hpieces l hl)
      have := hpl.length_le
      have := hql.length_le
      simp only [hink, if_true, List.length_drop] at hdrop
      omega
    exact (List.prefix_of_prefix_length_le hpl hql hlength.le).eq_of_length hlength

/-- What a text is without the indentation that is found. -/
structure IsDedented (cs out : List Char) : Prop where
  /-- All lines with ink lose the longest margin with which the late blank lines agree. -/
  exists_taken : ∃ taken, out = withoutMargin taken cs ∧
    ∀ q, q <+: taken ↔ IsMargin (lines cs) q ∧ ∀ l ∈ lateBlanks (lines cs), Agrees l q
  /-- The margin is the longest one, whatever blank lines there are. -/
  prefix_margin_iff : ∀ q, q <+: margin (lines cs) ↔ IsMargin (lines cs) q
  /-- It is what is taken off exactly if the late blank lines agree with it. -/
  eq_withoutMargin_iff : out = withoutMargin (margin (lines cs)) cs ↔
    ∀ l ∈ lateBlanks (lines cs), Agrees l (margin (lines cs))
  /-- There are as many line feeds as before. -/
  length_pieces : (pieces '\n' out).length = (pieces '\n' cs).length

/-- Any text is dedented in this sense, with what is common to its lines taken off. -/
theorem isDedented_dedent (cs : List Char) : IsDedented cs (dedent cs) where
  exists_taken := ⟨_, dedent_eq cs, fun _ => prefix_commonIndent_iff⟩
  prefix_margin_iff _ := Text.prefix_margin_iff
  eq_withoutMargin_iff := by
    rw [dedent_eq, withoutMargin_inj (isMargin_commonIndent _) (isMargin_margin _),
      commonIndent_eq_margin_iff]
  length_pieces := by
    rw [dedent_eq]
    exact length_pieces_withoutMargin _ cs

/-- Two lines with four spaces before them, and a line between them with a tab on it. -/
def tabbedText : List Char := "    a\n\t\n    b".toList

/-- The four spaces are the margin, but they are not taken off. -/
theorem dedent_ne_of_blank_line :
    (∀ q, q <+: "    ".toList ↔ IsMargin (lines tabbedText) q) ∧
      withoutMargin "    ".toList tabbedText = "a\n\nb".toList ∧
      dedent tabbedText = "    a\n\n    b".toList ∧
      dedent tabbedText ≠ withoutMargin "    ".toList tabbedText := by
  have hmargin : margin (lines tabbedText) = "    ".toList := by decide
  refine ⟨fun q => ?_, by decide, by decide, by decide⟩
  rw [← hmargin]
  exact prefix_margin_iff

end SymbolPaths.Text
