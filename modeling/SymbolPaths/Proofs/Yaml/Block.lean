import SymbolPaths.Proofs.Yaml.Layout
import SymbolPaths.Yaml.Scalar.Block
import SymbolPaths.Yaml.Scalar.Written

/-!
# Blocks are read back

A text of several lines is written as a block, with an indentation of two columns before each
line that has text. The reader takes the line ends after the last such line apart from the text,
and the sign at the start of the block says how many of them belong to it: all, the first, or
none, where the last line was not ended and an end was added.

* `exists_readLines`: how the lines of a block are taken apart;
* `append_chomp_chompingOf`: which of the line ends belong to the text;
* `exists_readBlock`: what was written as a block is read back.

The reader gathers line ends, and adds them to the text only when another line with text follows.
So what it has at the end of a block is the text without the line ends at its end, and these apart
(`Divides`). The writer has chosen the sign by the last two characters of the text, which tell as
much.
-/

namespace SymbolPaths.Yaml

variable {c : Char} {cs rest t : List Char} {m : Mark} {g g' : BlockGap}

/-! ### Lines -/

/-- Whether a text is divided into what comes before the line ends at its end, and these, where
    the first of them ends the last line with text. -/
structure Divides (cs t : List Char) (g : BlockGap) : Prop where
  /-- The text and the line ends make up the whole. -/
  eq_append : cs = t ++ (g.first ++ g.others)
  /-- There is one line end at least. -/
  length_first : g.first.length = 1
  /-- All that follows the text are line ends. -/
  isBreak_of_mem : ∀ c ∈ g.first ++ g.others, isBreak c
  /-- The text itself ends with none. -/
  isBreak_of_last : ∀ c, t.getLast? = some c → isBreak c = false

/-- A character before a text belongs to the text, unless it is a line end. -/
theorem Divides.cons (h : Divides cs t g) (hc : isBreak c = false) :
    Divides (c :: cs) (c :: t) g where
  eq_append := by rw [h.eq_append, List.cons_append]
  length_first := h.length_first
  isBreak_of_mem := h.isBreak_of_mem
  isBreak_of_last d hd := by
    cases t with
    | nil => rwa [← Option.some.inj hd]
    | cons e t => exact h.isBreak_of_last d (by rwa [List.getLast?_cons_cons] at hd)

/-- Whatever comes before a text belongs to it, if there is any text. -/
theorem Divides.append (h : Divides cs t g) (hne : t ≠ []) (before : List Char) :
    Divides (before ++ cs) (before ++ t) g where
  eq_append := by rw [h.eq_append, List.append_assoc]
  length_first := h.length_first
  isBreak_of_mem := h.isBreak_of_mem
  isBreak_of_last d hd := by
    have hlast := List.getLast?_eq_some_getLast hne
    rw [List.getLast?_append, hlast, Option.some_or, ← hlast] at hd
    exact h.isBreak_of_last d hd

/-- A line end that is added comes last. -/
theorem writeLines_append_break (hc : isBreak c) (fresh : Bool) (cs : List Char) :
    writeLines fresh (cs ++ [c]) = writeLines fresh cs ++ [c] := by
  induction cs generalizing fresh with
  | nil => exact if_pos hc
  | cons d cs ih =>
    rw [List.cons_append, writeLines, writeLines, ih, ih]
    split
    · rfl
    · rw [List.append_assoc]; rfl

/-- What comes of reading the lines of a block: the text before the line ends at its end, which
    are kept apart, up to the next entry. -/
def ReadsLines (inLine : Bool) (g : BlockGap) (m : Mark) (written rest t : List Char)
    (g' : BlockGap) : Prop :=
  ∃ m' : Mark, m'.column = 0 ∧
    readLines false 2 inLine g m (written ++ rest) = some (t, g', ⟨m', rest⟩)

/-- A block is over where an entry starts. -/
theorem readsLines_nil (hrest : startsEntry rest) (hm : m.column = 0) (g : BlockGap) :
    ReadsLines false g m [] rest [] g := by
  refine ⟨m, hm, ?_⟩
  cases rest with
  | nil => rfl
  | cons c cs =>
    have hbreak := isBreak_of_isGap_eq_false (isGap_of_startsEntry hrest)
    have hspace : c ≠ ' ' := ne_of_startsEntry hrest (by decide)
    have htab : c ≠ '\t' := ne_of_startsEntry hrest (by decide)
    rw [List.nil_append, readLines, hm, hbreak]
    simp [hspace, htab]

/-- An empty line. -/
theorem ReadsLines.empty (hc : isBreak c)
    (h : ReadsLines false { g with others := g.others ++ [c] } (m.after c) cs rest t g') :
    ReadsLines false g m (c :: cs) rest t g' := by
  obtain ⟨m', hm', hread⟩ := h
  refine ⟨m', hm', ?_⟩
  rw [List.cons_append, readLines, if_neg Bool.false_ne_true, if_pos hc, hread]

/-- The end of a line with text. -/
theorem ReadsLines.ended (hc : isBreak c)
    (h : ReadsLines false { g with first := [c] } (m.after c) cs rest t g') :
    ReadsLines true g m (c :: cs) rest t g' := by
  obtain ⟨m', hm', hread⟩ := h
  refine ⟨m', hm', ?_⟩
  rw [List.cons_append, readLines, if_pos rfl, if_pos hc, hread]

/-- A line goes on. -/
theorem ReadsLines.char (hc : isBreak c = false) (h : ReadsLines true g (m.after c) cs rest t g') :
    ReadsLines true g m (c :: cs) rest (c :: t) g' := by
  obtain ⟨m', hm', hread⟩ := h
  refine ⟨m', hm', ?_⟩
  rw [List.cons_append, readLines, if_pos rfl, hc, if_neg Bool.false_ne_true, hread]
  rfl

/-- A line with text begins behind its margin. -/
theorem ReadsLines.begins (hc : isBreak c = false) (hm : m.column = 0)
    (h : ReadsLines true ⟨[], [], isBlank c⟩ (((m.after ' ').after ' ').after c) cs rest t g') :
    ReadsLines false g m (' ' :: ' ' :: c :: cs) rest (g.first ++ g.others ++ c :: t) g' := by
  obtain ⟨m', hm', hread⟩ := h
  refine ⟨m', hm', ?_⟩
  have hone : (m.after ' ').column = 1 := congrArg (· + 1) hm
  have htwo : ((m.after ' ').after ' ').column = 2 := congrArg (· + 1) hone
  have hspace : isBreak ' ' = false := rfl
  simp only [List.cons_append, readLines, hspace, hc, hm, hone, htwo, hread, BlockGap.text]
  simp

/-- The lines of a block are taken apart from the line ends at its end, by induction on the text
    from some character on: within a line of it, or from the start of a line on, with the line
    ends before, which are all that there is if no line has text any more. -/
theorem exists_readLines (inLine : Bool)
    (hlast : cs.getLast?.any isBreak ∨ cs = [] ∧ inLine = false) (hrest : startsEntry rest)
    (hline : inLine = true → g.first = [] ∧ g.others = [])
    (hcolumn : inLine = false → m.column = 0) (hg : ∀ c ∈ g.first ++ g.others, isBreak c) :
    ∃ t g', ReadsLines inLine g m (writeLines (!inLine) cs) rest t g' ∧
      (inLine = false ∧ (∀ c ∈ cs, isBreak c) ∧ t = [] ∧ g' = { g with others := g.others ++ cs } ∨
        Divides (g.first ++ g.others ++ cs) t g') := by
  induction cs generalizing inLine g m with
  | nil =>
    obtain hbad | ⟨-, rfl⟩ := hlast
    · cases hbad
    · exact ⟨[], g, readsLines_nil hrest (hcolumn rfl) g, .inl ⟨rfl, nofun, rfl, by simp⟩⟩
  | cons c cs ih =>
    have hlast' : cs.getLast?.any isBreak ∨ cs = [] ∧ isBreak c := by
      cases cs with
      | nil => simpa using hlast
      | cons d ds => simpa using hlast
    cases hc : isBreak c with
    | true =>
      -- Behind the end of a line there may be nothing more.
      have hempty : cs.getLast?.any isBreak ∨ cs = [] ∧ false = false :=
        hlast'.imp_right fun h => ⟨h.1, rfl⟩
      rw [writeLines, if_pos hc]
      cases inLine with
      | false =>
        have hg' : ∀ d ∈ g.first ++ (g.others ++ [c]), isBreak d := by
          intro d hd
          rw [← List.append_assoc] at hd
          rcases List.mem_append.1 hd with hd | hd
          · exact hg d hd
          · rwa [List.mem_singleton.1 hd]
        obtain ⟨t, g', hreads, hdivides⟩ := ih false (g := { g with others := g.others ++ [c] })
          (m := m.after c) hempty nofun (fun _ => Mark.column_after_of_isBreak hc m) hg'
        refine ⟨t, g', hreads.empty hc, ?_⟩
        rcases hdivides with ⟨-, hall, rfl, rfl⟩ | hdivides
        · refine .inl ⟨rfl, List.forall_mem_cons.2 ⟨hc, hall⟩, rfl, ?_⟩
          simp
        · right
          simpa using hdivides
      | true =>
        obtain ⟨hfirst, hothers⟩ := hline rfl
        have hg' : ∀ d ∈ [c] ++ g.others, isBreak d := by
          rw [hothers]
          simpa using hc
        obtain ⟨t, g', hreads, hdivides⟩ := ih false (g := { g with first := [c] })
          (m := m.after c) hempty nofun (fun _ => Mark.column_after_of_isBreak hc m) hg'
        refine ⟨t, g', hreads.ended hc, .inr ?_⟩
        rw [hfirst, hothers]
        -- If no other line has text, this was the end of the last one.
        rcases hdivides with ⟨-, hall, rfl, rfl⟩ | hdivides
        · exact ⟨by simp [hothers], rfl, by simpa [hothers, hc] using hall, nofun⟩
        · simpa [hothers] using hdivides
    | false =>
      -- The last character ends a line, so there is more.
      have hmore : cs.getLast?.any isBreak ∨ cs = [] ∧ true = false :=
        hlast'.imp_right fun h => absurd (hc.symm.trans h.2) Bool.false_ne_true
      rw [writeLines, if_neg (Bool.eq_false_iff.1 hc)]
      cases inLine with
      | false =>
        obtain ⟨t, g', hreads, ⟨hbad, -⟩ | hdivides⟩ := ih true (g := ⟨[], [], isBlank c⟩)
          (m := ((m.after ' ').after ' ').after c) hmore (fun _ => ⟨rfl, rfl⟩) nofun nofun
        · cases hbad
        · exact ⟨_, g', hreads.begins hc (hcolumn rfl),
            .inr ((hdivides.cons hc).append (List.cons_ne_nil c t) _)⟩
      | true =>
        obtain ⟨hfirst, hothers⟩ := hline rfl
        obtain ⟨t, g', hreads, ⟨hbad, -⟩ | hdivides⟩ :=
          ih true (m := m.after c) hmore hline nofun hg
        · cases hbad
        · refine ⟨c :: t, g', hreads.char hc, .inr ?_⟩
          rw [hfirst, hothers] at hdivides ⊢
          exact hdivides.cons hc

/-! ### The signs of a block -/

/-- What the signs of a block say of the line ends after its last line. -/
def chompingOf (cs : List Char) : Chomping :=
  match cs.reverse with
  | [] => .strip
  | [c] => if isBreak c then .keep else .strip
  | c :: d :: _ => if !isBreak c then .strip else if isBreak d then .keep else .clip

/-- The line end that is added to a text that has none. -/
def endOf (cs : List Char) : List Char := if cs.getLast?.any isBreak then [] else ['\n']

/-- The header of a block is read back: how to go about its end, and whether its indentation has to
    be told. -/
theorem read?_blockSigns (cs rest : List Char) :
    BlockHeader.read? (blockSigns cs ++ '\n' :: rest) =
      some (⟨chompingOf cs, if cs.head?.any isSpaceOrBreak then some 2 else none⟩,
        (blockSigns cs).length) := by
  rw [blockSigns, chompingOf]
  generalize cs.head?.any isSpaceOrBreak = indented, cs.reverse = ends
  match ends with
  | [] => cases indented <;> rfl
  | [c] => cases hc : isBreak c <;> cases indented <;> simp only [hc] <;> rfl
  | c :: d :: _ =>
    cases hc : isBreak c <;> cases hd : isBreak d <;> cases indented <;> simp only [hc, hd] <;> rfl

/-- What is said depends on the last two characters. -/
theorem chompingOf_cases (hne : cs ≠ []) :
    (∃ start c, cs = start ++ [c] ∧ isBreak c = false ∧ chompingOf cs = .strip ∧
      endOf cs = ['\n']) ∨
    (chompingOf cs = .keep ∧ endOf cs = []) ∨
    ∃ start c d, cs = start ++ [d] ++ [c] ∧ isBreak d = false ∧ chompingOf cs = .clip ∧
      endOf cs = [] := by
  obtain rfl | ⟨start, c, rfl⟩ := List.eq_nil_or_concat cs
  · exact absurd rfl hne
  have hlast : (start ++ [c]).getLast?.any isBreak = isBreak c := by simp
  rw [List.concat_eq_append, endOf, chompingOf, hlast, List.reverse_append, List.reverse_singleton,
    List.singleton_append]
  obtain rfl | ⟨start, d, rfl⟩ := List.eq_nil_or_concat start
  · cases hc : isBreak c with
    | false => exact .inl ⟨[], c, rfl, hc, by simp [hc], rfl⟩
    | true => exact .inr (.inl ⟨by simp [hc], rfl⟩)
  · rw [List.concat_eq_append, List.reverse_append, List.reverse_singleton, List.singleton_append]
    cases hc : isBreak c with
    | false => exact .inl ⟨_, c, rfl, hc, by simp [hc], rfl⟩
    | true =>
      cases hd : isBreak d with
      | false => exact .inr (.inr ⟨start, c, d, rfl, hd, by simp [hc, hd], rfl⟩)
      | true => exact .inr (.inl ⟨by simp [hc, hd], rfl⟩)

/-- If there is a character that ends no line just before the last one, that one is the only line
    end. -/
theorem Divides.of_append_singleton (h : Divides (cs ++ [c]) t g)
    (hlast : ∀ d, cs.getLast? = some d → isBreak d = false) : t = cs ∧ g.first = [c] := by
  obtain ⟨b, hb⟩ := List.length_eq_one_iff.1 h.length_first
  have heq := h.eq_append
  obtain hnil | ⟨others, d, hothers⟩ := List.eq_nil_or_concat g.others
  · rw [hnil, List.append_nil, hb] at heq
    obtain ⟨rfl, hc⟩ := List.append_inj' heq rfl
    exact ⟨rfl, hb.trans hc.symm⟩
  · -- The last but one of several line ends would be that character.
    rw [hothers, List.concat_eq_append, ← List.append_assoc, ← List.append_assoc] at heq
    obtain ⟨rfl, -⟩ := List.append_inj' heq rfl
    have hne : g.first ++ others ≠ [] := by simp [hb]
    have hmem : (g.first ++ others).getLast hne ∈ g.first ++ g.others := by
      rw [hothers, List.concat_eq_append, ← List.append_assoc]
      exact List.mem_append_left _ (List.getLast_mem hne)
    have hend : (t ++ g.first ++ others).getLast? = some ((g.first ++ others).getLast hne) := by
      rw [List.append_assoc, List.getLast?_append, List.getLast?_eq_some_getLast hne,
        Option.some_or]
    exact absurd ((hlast _ hend).symm.trans (h.isBreak_of_mem _ hmem)) Bool.false_ne_true

/-- The signs leave to the text just the line ends that it has. -/
theorem append_chomp_chompingOf (hne : cs ≠ []) (h : Divides (cs ++ endOf cs) t g) :
    t ++ g.chomp (chompingOf cs) = cs := by
  rcases chompingOf_cases hne with ⟨start, c, rfl, hc, hchomping, hend⟩ | ⟨hchomping, hend⟩ |
    ⟨start, c, d, rfl, hd, hchomping, hend⟩
  · rw [hend] at h
    obtain ⟨rfl, -⟩ := h.of_append_singleton (by simpa using hc)
    rw [hchomping, BlockGap.chomp, List.append_nil]
  · rw [hend, List.append_nil] at h
    rw [hchomping, BlockGap.chomp, ← h.eq_append]
  · rw [hend, List.append_nil] at h
    obtain ⟨rfl, hfirst⟩ := h.of_append_singleton (by simpa using hd)
    rw [hchomping, BlockGap.chomp, hfirst]

/-- A text of line ends only is kept as it is. -/
theorem chompingOf_of_all (hne : cs ≠ []) (h : ∀ c ∈ cs ++ endOf cs, isBreak c) :
    chompingOf cs = .keep ∧ endOf cs = [] := by
  rcases chompingOf_cases hne with ⟨start, c, rfl, hc, -⟩ | hkeep | ⟨start, c, d, rfl, hd, -⟩
  · exact absurd (hc.symm.trans (h c (by simp))) Bool.false_ne_true
  · exact hkeep
  · exact absurd (hd.symm.trans (h d (by simp))) Bool.false_ne_true

/-! ### Blocks -/

/-- Where it is not told how far the lines are indented, the first of them tells it. -/
theorem findIndent_writeLines (hne : cs ≠ []) (hhead : cs.head?.any isSpaceOrBreak = false)
    (hprintable : ∀ c ∈ cs, isPrintable c) (rest : List Char) :
    findIndent 0 0 (writeLines true cs ++ rest) = some 2 := by
  cases cs with
  | nil => exact absurd rfl hne
  | cons c cs =>
    obtain ⟨hspace, hbreak⟩ := Bool.or_eq_false_iff.1 hhead
    have htab : c ≠ '\t' := by
      rintro rfl
      exact absurd (hprintable _ List.mem_cons_self) (by decide)
    rw [writeLines, hbreak]
    simp [findIndent, margin, hbreak, htab, beq_eq_false_iff_ne.1 hspace]

/-- A block ends with the end of a line. -/
theorem endsWith_append_endOf (cs : List Char) : (cs ++ endOf cs).getLast?.any isBreak := by
  rw [endOf]
  split
  · next h => rwa [List.append_nil]
  · simp; rfl

/-- What is added at the end of a block is not indented. -/
theorem writeLines_append_endOf (cs : List Char) :
    writeLines true (cs ++ endOf cs) = writeLines true cs ++ endOf cs := by
  rw [endOf]
  split
  · rw [List.append_nil, List.append_nil]
  · exact writeLines_append_break rfl true cs

/-- What was written as a block is read back. -/
theorem exists_readBlock (h : allowsBlock cs) (hne : cs ≠ []) (hrest : startsEntry rest)
    (m : Mark) :
    ∃ m' : Mark, m'.column = 0 ∧
      readBlock false 1 ⟨m, blockSigns cs ++ '\n' :: (writeLines true cs ++ (endOf cs ++ rest))⟩ =
        some (cs, ⟨m', rest⟩) := by
  simp only [allowsBlock, Bool.and_eq_true, Bool.not_eq_true', List.all_eq_true] at h
  obtain ⟨⟨hprintable, -⟩, -⟩ := h
  obtain ⟨t, g, ⟨m', hm', hread⟩, hdivides⟩ := exists_readLines false (g := ⟨[], [], true⟩)
    (m := ((m.skip (blockSigns cs).length).skip 0).after '\n') (.inl (endsWith_append_endOf cs))
    hrest nofun (fun _ => Mark.column_after_of_isBreak rfl _) nofun
  rw [Bool.not_false, writeLines_append_endOf, List.append_assoc] at hread
  have htext : t ++ g.chomp (chompingOf cs) = cs := by
    -- A text of line ends alone keeps all of them.
    rcases hdivides with ⟨-, hall, rfl, rfl⟩ | hdivides
    · obtain ⟨hchomping, hend⟩ := chompingOf_of_all hne hall
      rw [hchomping, hend, BlockGap.chomp, List.append_nil]
      rfl
    · exact append_chomp_chompingOf hne hdivides
  have hbreak : isBreak '\n' = true := rfl
  have hblank : isBlank '\n' = false := rfl
  refine ⟨m', hm', ?_⟩
  rw [readBlock]
  simp only [read?_blockSigns, Option.bind_eq_bind, Option.bind_some, List.drop_left, skipBlanks,
    hblank, Bool.false_eq_true, if_false, Char.reduceEq, List.length_nil, Spot.drop, List.drop_zero,
    hbreak, if_true]
  -- The indentation is told, or is found.
  cases hhead : cs.head?.any isSpaceOrBreak with
  | true =>
    rw [if_pos rfl]
    simp only [Nat.sub_self, Nat.zero_add, hread, Option.bind_some, htext]
  | false =>
    rw [if_neg Bool.false_ne_true]
    simp only [findIndent_writeLines hne hhead hprintable, Option.map_some, Option.bind_some]
    rw [show max (max 2 1) 1 = 2 from rfl, hread, Option.bind_some, htext]

end SymbolPaths.Yaml
