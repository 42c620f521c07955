import SymbolPaths.Proofs.Yaml.Layout
import SymbolPaths.Yaml.Scalar.Quoted
import SymbolPaths.Yaml.Scalar.Written

/-!
# Quoted texts are read back

What is written between quotes comes back as it was. In single quotes everything stands for
itself, and only where lines end more has to be kept apart: the spaces before further lines are
no part of the text, so there must be none in the text. In double quotes there are no lines, and
every escape stands for the character that it was written for.

* `exists_readSingleQuoted`: what was written in single quotes is read back;
* `exists_readDoubleQuoted`: what was written in double quotes is read back.

Inside quotes the reader gathers spaces and line ends until something else comes, and only then
knows what they were: spaces within a line are kept, those around a line end are not, and line
feeds are folded. So an induction along the text has to know what has been gathered (`Pending`),
and that what it will come to is what was written of it. The writer takes single quotes only where
there is no line feed, and in double quotes all line ends are escaped.
-/

namespace SymbolPaths.Yaml

variable {c x : Char} {cs gap rest : List Char} {m : Mark}

/-! ### Gaps -/

/-- The margin of a line is no part of the text, and line ends other than line feeds stay as they
    are. -/
theorem foldGap_append_margin (hne : gap ≠ []) (h : ∀ c ∈ gap, isBreak c ∧ c ≠ '\n') :
    foldGap false (gap ++ margin) = gap := by
  have hfilter : (gap ++ margin).filter isBreak = gap := by
    rw [List.filter_append, List.filter_eq_self.2 fun c hc => (h c hc).1]
    exact List.append_nil gap
  cases gap with
  | nil => exact absurd rfl hne
  | cons b bs =>
    rw [foldGap, hfilter]
    simp only [Bool.false_or, decide_eq_true_eq]
    exact if_pos (h b List.mem_cons_self).2

/-! ### Single quotes -/

/-- What was read of a gap inside single quotes, after the character `x`: nothing, spaces in a
    line, or the ends of lines, of which the last is `fresh`. -/
inductive Pending : Char → Bool → List Char → Prop
  /-- Nothing was gathered. -/
  | nothing {x : Char} : isBreak x = false → Pending x false []
  /-- Spaces were gathered, after a space of the text. -/
  | spaces {gap : List Char} : (∀ c ∈ gap, c = ' ') → Pending ' ' false gap
  /-- Line ends were gathered, none of which is a line feed. -/
  | breaks {x : Char} {gap : List Char} : isBreak x → gap ≠ [] →
      (∀ c ∈ gap, isBreak c ∧ c ≠ '\n') → Pending x true gap

/-- The indentation of a line that has just begun, if it has. -/
def marginOf (fresh : Bool) : List Char := if fresh then margin else []

/-- What was read of a gap is what was written of the text there. -/
theorem Pending.foldGap_eq {fresh : Bool} (h : Pending x fresh gap) :
    foldGap false (gap ++ marginOf fresh) = gap := by
  cases h with
  | nothing _ => rfl
  | spaces hgap =>
    rw [marginOf, if_neg Bool.false_ne_true, List.append_nil, foldGap_spaces hgap]
  | breaks _ hne hgap => exact foldGap_append_margin hne hgap

/-- The end of a line comes behind no space. -/
theorem Pending.break {fresh : Bool} (h : Pending x fresh gap) (hc : isBreak c) (hnot : c ≠ '\n')
    (htrailing : (x == ' ' && isBreak c) = false) : Pending c true (gap ++ [c]) := by
  refine .breaks hc (by simp) fun d hd => ?_
  rcases List.mem_append.1 hd with hd | hd
  · cases h with
    | nothing _ => cases hd
    | spaces _ => exact absurd (htrailing.symm.trans hc) Bool.false_ne_true
    | breaks _ _ hall => exact hall d hd
  · rw [List.mem_singleton.1 hd]
    exact ⟨hc, hnot⟩

/-- A space comes within a line. -/
theorem Pending.space {fresh : Bool} (h : Pending x fresh gap)
    (hleading : (isBreak x && ' ' == ' ') = false) :
    fresh = false ∧ Pending ' ' false (gap ++ [' ']) := by
  cases h with
  | nothing _ => exact ⟨rfl, .spaces (by simp)⟩
  | spaces hall => exact ⟨rfl, .spaces (forall_mem_append_space hall)⟩
  | breaks hx _ _ => simp [hx] at hleading

/-- A gap is gathered until it is over. -/
theorem readSingleQuoted_gap (h : isGap c) :
    readSingleQuoted gap m (c :: cs) = readSingleQuoted (gap ++ [c]) (m.after c) cs := by
  rw [readSingleQuoted.eq_def]
  exact if_pos h

/-- Any other character ends the gap before it and stands for itself. -/
theorem readSingleQuoted_char (h : isGap c = false) (hm : 0 < m.column) (hc : c ≠ '\'') :
    readSingleQuoted gap m (c :: cs) =
      (readSingleQuoted [] (m.after c) cs).map fun (t, s) => (foldGap false gap ++ c :: t, s) := by
  rw [readSingleQuoted.eq_def]
  simp only [h, endsDocument_eq_false hm, Bool.false_eq_true, if_false, if_neg hc]

/-- Two quotes stand for one. -/
theorem readSingleQuoted_quote (hm : 0 < m.column) :
    readSingleQuoted gap m ('\'' :: '\'' :: cs) =
      (readSingleQuoted [] (m.skip 2) cs).map fun (t, s) =>
        (foldGap false gap ++ '\'' :: t, s) := by
  have hquote : isGap '\'' = false := rfl
  rw [readSingleQuoted, hquote, endsDocument_eq_false hm]
  simp only [Bool.false_eq_true, if_false, if_true]

/-- A single quote ends the text. -/
theorem readSingleQuoted_end (hm : 0 < m.column) (hx : x ≠ '\'') :
    readSingleQuoted gap m ('\'' :: x :: cs) =
      some (foldGap false gap, ⟨m.skip 1, x :: cs⟩) := by
  have hquote : isGap '\'' = false := rfl
  rw [readSingleQuoted, hquote, endsDocument_eq_false hm]
  simp only [Bool.false_eq_true, if_false, if_true, if_neg hx]

/-- The margin is read as a part of the gap. -/
theorem exists_readSingleQuoted_marginOf {fresh : Bool} (h : fresh = false → 0 < m.column)
    (gap cs : List Char) :
    ∃ m' : Mark, 0 < m'.column ∧ readSingleQuoted gap m (marginOf fresh ++ cs) =
      readSingleQuoted (gap ++ marginOf fresh) m' cs := by
  cases fresh with
  | false => exact ⟨m, h rfl, by rw [marginOf, if_neg Bool.false_ne_true, List.append_nil]; rfl⟩
  | true =>
    refine ⟨(m.after ' ').after ' ', Mark.column_after_pos rfl _, ?_⟩
    rw [marginOf, if_pos rfl, margin, List.cons_append, List.cons_append, List.nil_append,
      readSingleQuoted_gap rfl, readSingleQuoted_gap rfl, List.append_assoc]
    rfl

/-- A character that ends no line is written behind the margin of its line, and twice if it is a
    quote. -/
theorem writeSingle_cons (hbreak : isBreak c = false) (fresh : Bool) :
    writeSingle fresh (c :: cs) =
      marginOf fresh ++ ((if c = '\'' then [c, c] else [c]) ++ writeSingle false cs) := by
  rw [writeSingle, hbreak, if_neg Bool.false_ne_true, List.append_assoc]
  rfl

/-- Whether what was written of a text is read back up to the closing quote, behind a gap of which
    a part was read so far. -/
def ReadsSingle (gap : List Char) (m : Mark) (written cs rest : List Char) : Prop :=
  ∃ m', readSingleQuoted gap m (written ++ '\'' :: '\n' :: rest) =
    some (gap ++ cs, ⟨m', '\n' :: rest⟩)

/-- Gaps are read back as they are gathered. -/
theorem ReadsSingle.blank {written : List Char} (hc : isGap c)
    (h : ReadsSingle (gap ++ [c]) (m.after c) written cs rest) :
    ReadsSingle gap m (c :: written) (c :: cs) rest := by
  obtain ⟨m', hread⟩ := h
  refine ⟨m', ?_⟩
  rw [List.cons_append, readSingleQuoted_gap hc, hread, List.append_assoc]
  rfl

/-- A character ends the gap; a quote is written twice. -/
theorem ReadsSingle.char {written : List Char} {fresh : Bool} (hc : isGap c = false)
    (hpending : Pending x fresh gap) (hcolumn : fresh = false → 0 < m.column)
    (h : ∀ {m : Mark}, 0 < m.column → ReadsSingle [] m written cs rest) :
    ReadsSingle gap m (marginOf fresh ++ ((if c = '\'' then [c, c] else [c]) ++ written))
      (c :: cs) rest := by
  obtain ⟨m₁, hm₁, hmargin⟩ := exists_readSingleQuoted_marginOf hcolumn gap
    ((if c = '\'' then [c, c] else [c]) ++ (written ++ '\'' :: '\n' :: rest))
  rw [ReadsSingle, List.append_assoc, List.append_assoc, hmargin]
  by_cases hquote : c = '\''
  · subst hquote
    obtain ⟨m', hread⟩ := h (m := m₁.skip 2) (Nat.succ_pos _)
    refine ⟨m', ?_⟩
    change readSingleQuoted _ m₁ ('\'' :: '\'' :: (written ++ _)) = _
    rw [readSingleQuoted_quote hm₁, hread, hpending.foldGap_eq]
    rfl
  · obtain ⟨m', hread⟩ := h (Mark.column_after_pos (isBreak_of_isGap_eq_false hc) m₁)
    refine ⟨m', ?_⟩
    rw [if_neg hquote]
    change readSingleQuoted _ m₁ (c :: (written ++ _)) = _
    rw [readSingleQuoted_char hc hm₁ hquote, hread, hpending.foldGap_eq]
    rfl

/-- The reading goes along with the writing; the gap before is what was read of it so far. -/
theorem readsSingle_writeSingle {fresh : Bool} (hprintable : ∀ c ∈ cs, isPrintable c ∧ c ≠ '\n')
    (htrailing : hasTrailing (x :: cs) = false) (hleading : hasLeading (x :: cs) = false)
    (hpending : Pending x fresh gap) (hcolumn : fresh = false → 0 < m.column) :
    ReadsSingle gap m (writeSingle fresh cs) cs rest := by
  induction cs generalizing x fresh gap m with
  | nil =>
    obtain ⟨m', hm', hmargin⟩ := exists_readSingleQuoted_marginOf hcolumn gap
      ('\'' :: '\n' :: rest)
    refine ⟨m'.skip 1, ?_⟩
    change readSingleQuoted gap m (marginOf fresh ++ _) = _
    rw [hmargin, readSingleQuoted_end hm' (by decide), hpending.foldGap_eq, List.append_nil]
  | cons c cs ih =>
    obtain ⟨⟨hc, hnot⟩, hcs⟩ := List.forall_mem_cons.1 hprintable
    obtain ⟨htrailing, htrailing'⟩ := Bool.or_eq_false_iff.1 htrailing
    obtain ⟨hleading, hleading'⟩ := Bool.or_eq_false_iff.1 hleading
    cases hbreak : isBreak c with
    | true =>
      rw [writeSingle, hbreak, if_pos rfl]
      exact .blank (isGap_of_isBreak hbreak) (ih hcs htrailing' hleading'
        (hpending.break hbreak hnot htrailing) nofun)
    | false =>
      rw [writeSingle_cons hbreak]
      by_cases hspace : c = ' '
      · -- After the end of a line there is no space, so no margin comes before this one.
        subst hspace
        obtain ⟨rfl, hpending'⟩ := hpending.space hleading
        exact .blank rfl (ih hcs htrailing' hleading' hpending'
          fun _ => Mark.column_after_pos rfl m)
      · have hgap : isGap c = false := by
          rw [isGap_eq_of_isPrintable hc hbreak, beq_eq_false_iff_ne.2 hspace]
        exact .char hgap hpending hcolumn fun hm =>
          ih hcs htrailing' hleading' (.nothing hbreak) fun _ => hm

/-- A character that begins no pair can be left out of the search for pairs. -/
theorem hasPair_cons_of_false {first second : Char → Bool} (h : first x = false) :
    hasPair first second (x :: cs) = hasPair first second cs := by
  cases cs with
  | nil => rfl
  | cons c cs => rw [hasPair, h, Bool.false_and, Bool.false_or]

/-- What was written in single quotes is read back. -/
theorem exists_readSingleQuoted (h : allowsSingle cs) (hnot : '\n' ∉ cs) (hm : 0 < m.column)
    (rest : List Char) :
    ∃ m', readSingleQuoted [] m (writeSingle false cs ++ '\'' :: '\n' :: rest) =
      some (cs, ⟨m', '\n' :: rest⟩) := by
  simp only [allowsSingle, Bool.and_eq_true, Bool.not_eq_true', List.all_eq_true] at h
  obtain ⟨⟨hprintable, htrailing⟩, hleading⟩ := h
  -- Before the first character there might be any letter.
  exact readsSingle_writeSingle (x := 'a')
    (fun c hc => ⟨hprintable c hc, fun heq => hnot (heq ▸ hc)⟩)
    ((hasPair_cons_of_false rfl).trans htrailing) ((hasPair_cons_of_false rfl).trans hleading)
    (.nothing rfl) fun _ => hm

/-! ### Escapes -/

open Number in
/-- Hexadecimal digits are read one after another, each sixteen times as much as the next. -/
theorem foldlM_hexDigits {width n : Nat} (h : n < Nat.pow 16 width) :
    (hexDigits width n).foldlM
      (fun n c => (digitValue? c).bind fun d => if d < 16 then some (16 * n + d) else none) 0 =
      some n := by
  induction width generalizing n with
  | zero => rw [Nat.lt_one_iff.1 h]; rfl
  | succ width ih =>
    have hlt : n % 16 < 16 := Nat.mod_lt n (by decide)
    have hhigh : n / 16 < Nat.pow 16 width :=
      Nat.div_lt_of_lt_mul (Nat.lt_of_lt_of_eq h (Nat.mul_comm ..))
    rw [hexDigits, List.foldlM_append, ih hhigh]
    simp [digitValue?_hexDigit hlt, hlt, Nat.div_add_mod]

/-- Numbers are written with a fixed number of digits. -/
theorem length_hexDigits (width n : Nat) : (Number.hexDigits width n).length = width := by
  induction width generalizing n with
  | zero => rfl
  | succ width ih => rw [Number.hexDigits, List.length_append, ih, List.length_singleton]

/-- A number is read back from its hexadecimal digits. -/
theorem ofDigits?_hexDigits {width n : Nat} (hwidth : 0 < width) (h : n < Nat.pow 16 width) :
    Number.ofDigits? 16 (Number.hexDigits width n) = some n := by
  have hne : (Number.hexDigits width n).isEmpty = false := by
    rw [List.isEmpty_eq_false_iff_exists_mem, ← List.length_pos_iff_exists_mem, length_hexDigits]
    exact hwidth
  rw [Number.ofDigits?, hne, if_neg Bool.false_ne_true]
  exact foldlM_hexDigits h

/-- Hexadecimal digits are printable and end no line. -/
theorem isPrintable_hexDigits {width n : Nat} (hc : c ∈ Number.hexDigits width n) :
    isPrintable c ∧ isBreak c = false := by
  have hdigit : ∀ n < 16,
      isPrintable (Number.hexDigit n) ∧ isBreak (Number.hexDigit n) = false := by
    decide
  induction width generalizing n with
  | zero => cases hc
  | succ width ih =>
    rcases List.mem_append.1 hc with hc | hc
    · exact ih hc
    · rw [List.mem_singleton.1 hc]
      exact hdigit _ (Nat.mod_lt n (by decide))

/-- A character is read back from its number. -/
theorem charOf?_toNat (c : Char) : charOf? c.toNat = some c := by
  have hvalid : c.toNat.isValidChar := c.valid
  rw [charOf?, if_pos hvalid, Char.ofNat_toNat]

/-- The number of a character is read as the character. -/
theorem readEscape?_hexDigits {letter : Char} {width : Nat}
    (hletter : (letter, width) ∈ [('x', 2), ('u', 4), ('U', 8)]) (hc : c.toNat < Nat.pow 16 width)
    (cs : List Char) :
    readEscape? (letter :: Number.hexDigits width c.toNat ++ cs) = some (c, width + 1) := by
  have hlength : ¬(Number.hexDigits width c.toNat ++ cs).length < width := by
    rw [List.length_append, length_hexDigits]
    omega
  have htake : (Number.hexDigits width c.toNat ++ cs).take width =
      Number.hexDigits width c.toNat :=
    List.take_left' (length_hexDigits ..)
  have hwidth : 0 < width := by
    revert hletter
    simp +contextual
    omega
  have hdigits := ofDigits?_hexDigits hwidth hc
  simp only [List.mem_cons, List.not_mem_nil, or_false, Prod.mk.injEq] at hletter
  rcases hletter with ⟨rfl, rfl⟩ | ⟨rfl, rfl⟩ | ⟨rfl, rfl⟩ <;>
    simp only [List.cons_append, readEscape?, if_neg hlength, htake, hdigits, Option.bind_some,
      charOf?_toNat, Option.map_some, if_true, if_false, Char.reduceEq]

/-- The letters of escapes are read as what they are written for. -/
theorem readEscape?_escapeLetters {letter : Char} (h : (c, letter) ∈ escapeLetters)
    (cs : List Char) :
    isPrintable letter ∧ isBreak letter = false ∧ readEscape? (letter :: cs) = some (c, 1) := by
  have hall : ∀ p ∈ escapeLetters, isPrintable p.2 ∧ isBreak p.2 = false ∧ p.2 ≠ 'x' ∧
      p.2 ≠ 'u' ∧ p.2 ≠ 'U' ∧ shortEscapes.lookup p.2 = some p.1 := by decide
  obtain ⟨hprintable, hbreak, hx, hu, hU, hlookup⟩ := hall _ h
  refine ⟨hprintable, hbreak, ?_⟩
  rw [readEscape?]
  simp only [if_neg hx, if_neg hu, if_neg hU, hlookup, Option.map_some]

/-- A character is written as it is, or as an escape that stands for it. -/
theorem writeEscaped_cases (c : Char) :
    (writeEscaped c = [c] ∧ isPrintable c ∧ isBreak c = false ∧ c ≠ '"' ∧ c ≠ '\\') ∨
    ∃ e, writeEscaped c = '\\' :: e ∧ e ≠ [] ∧ (∀ d ∈ e, isPrintable d ∧ isBreak d = false) ∧
      ∀ cs, readEscape? (e ++ cs) = some (c, e.length) := by
  -- The three number escapes differ in their letter and in how many digits they have.
  have hnumber {letter : Char} {width : Nat}
      (hwrite : writeEscaped c = '\\' :: letter :: Number.hexDigits width c.toNat)
      (hc : c.toNat < Nat.pow 16 width)
      (hletter : (letter, width) ∈ [('x', 2), ('u', 4), ('U', 8)]) :
      ∃ e, writeEscaped c = '\\' :: e ∧ e ≠ [] ∧ (∀ d ∈ e, isPrintable d ∧ isBreak d = false) ∧
        ∀ cs, readEscape? (e ++ cs) = some (c, e.length) := by
    refine ⟨_, hwrite, List.cons_ne_nil _ _, fun d hd => ?_, fun cs => ?_⟩
    · rcases List.mem_cons.1 hd with rfl | hd
      · have hall : ∀ p ∈ [('x', 2), ('u', 4), ('U', 8)],
            isPrintable p.1 ∧ isBreak p.1 = false := by decide
        exact hall _ hletter
      · exact isPrintable_hexDigits hd
    · rw [readEscape?_hexDigits hletter hc, List.length_cons, length_hexDigits]
  -- A character with a letter of its own, one written as it is, or one written as a number.
  cases hlookup : escapeLetters.lookup c with
  | some letter =>
    have hmem : (c, letter) ∈ escapeLetters := by
      obtain ⟨before, after, heq, -⟩ := List.lookup_eq_some_iff.1 hlookup
      rw [heq]
      exact List.mem_append_right before List.mem_cons_self
    refine .inr ⟨[letter], by rw [writeEscaped, hlookup], List.cons_ne_nil _ _, ?_, ?_⟩
    · obtain ⟨hprintable, hbreak, -⟩ := readEscape?_escapeLetters hmem []
      simp [hprintable, hbreak]
    · exact fun cs => (readEscape?_escapeLetters hmem cs).2.2
  | none =>
    cases hprintable : isPrintable c with
    | true =>
      have hne {d : Char} (hd : (escapeLetters.lookup d).isSome) : c ≠ d := by
        rintro rfl
        rw [hlookup] at hd
        cases hd
      refine .inl ⟨by simp only [writeEscaped, hlookup, hprintable, if_true], rfl, ?_,
        hne (by decide), hne (by decide)⟩
      simp only [isBreak, Bool.or_eq_false_iff, beq_eq_false_iff_ne]
      exact ⟨⟨hne (by decide), hne (by decide)⟩, hne (by decide)⟩
    | false =>
      have hwrite : writeEscaped c =
          if c.toNat < 0x100 then '\\' :: 'x' :: Number.hexDigits 2 c.toNat
          else if c.toNat < 0x10000 then '\\' :: 'u' :: Number.hexDigits 4 c.toNat
          else '\\' :: 'U' :: Number.hexDigits 8 c.toNat := by
        simp only [writeEscaped, hlookup, hprintable, Bool.false_eq_true, if_false]
      right
      split at hwrite
      · next hlt => exact hnumber hwrite hlt (by decide)
      · split at hwrite
        · next hlt => exact hnumber hwrite hlt (by decide)
        · exact hnumber hwrite c.val.toNat_lt (by decide)

/-! ### Double quotes -/

/-- Between double quotes a gap is gathered until it is over. -/
theorem readDoubleQuoted_gap (h : isGap c) :
    readDoubleQuoted 0 false gap m (c :: cs) =
      readDoubleQuoted 0 false (gap ++ [c]) (m.after c) cs := by
  rw [readDoubleQuoted.eq_def]
  exact if_pos h

/-- Any other character but a quote or a backslash stands for itself. -/
theorem readDoubleQuoted_char (h : isGap c = false) (hm : 0 < m.column) (hquote : c ≠ '"')
    (hslash : c ≠ '\\') :
    readDoubleQuoted 0 false gap m (c :: cs) =
      (readDoubleQuoted 0 false [] (m.after c) cs).map fun (t, s) =>
        (foldGap false gap ++ c :: t, s) := by
  rw [readDoubleQuoted.eq_def]
  simp only [h, endsDocument_eq_false hm, Bool.false_eq_true, if_false, if_neg hquote,
    if_neg hslash]

/-- A double quote ends the text. -/
theorem readDoubleQuoted_end (hm : 0 < m.column) :
    readDoubleQuoted 0 false gap m ('"' :: cs) = some (foldGap false gap, ⟨m.skip 1, cs⟩) := by
  have hquote : isGap '"' = false := rfl
  rw [readDoubleQuoted.eq_def]
  simp only [hquote, endsDocument_eq_false hm, Bool.false_eq_true, if_false, if_true]

/-- The characters of an escape that was read already are passed over. -/
theorem exists_readDoubleQuoted_skip {e : List Char} (he : ∀ d ∈ e, isBreak d = false)
    (hm : 0 < m.column) (cs : List Char) :
    ∃ m' : Mark, 0 < m'.column ∧
      readDoubleQuoted e.length false [] m (e ++ cs) = readDoubleQuoted 0 false [] m' cs := by
  induction e generalizing m with
  | nil => exact ⟨m, hm, rfl⟩
  | cons d e ih =>
    obtain ⟨hd, he⟩ := List.forall_mem_cons.1 he
    obtain ⟨m', hm', hskip⟩ := ih he (Mark.column_after_pos hd m)
    refine ⟨m', hm', ?_⟩
    rw [← hskip, List.length_cons, List.cons_append, readDoubleQuoted.eq_def]

/-- Reads an escape that stands for a character. -/
theorem exists_readDoubleQuoted_escape {e : List Char} (hne : e ≠ [])
    (he : ∀ d ∈ e, isBreak d = false) (hread : readEscape? (e ++ cs) = some (c, e.length))
    (hm : 0 < m.column) (gap : List Char) :
    ∃ m' : Mark, 0 < m'.column ∧ readDoubleQuoted 0 false gap m ('\\' :: (e ++ cs)) =
      (readDoubleQuoted 0 false [] m' cs).map fun (t, s) => (foldGap false gap ++ c :: t, s) := by
  obtain ⟨m', hm', hskip⟩ := exists_readDoubleQuoted_skip (m := m.skip 1) he (Nat.succ_pos _) cs
  refine ⟨m', hm', ?_⟩
  cases e with
  | nil => exact absurd rfl hne
  | cons d e =>
    have hslash : isGap '\\' = false := rfl
    have hquote : '\\' ≠ '"' := by decide
    rw [← hskip, List.cons_append, readDoubleQuoted.eq_def]
    rw [List.cons_append] at hread
    simp only [hslash, endsDocument_eq_false hm, Bool.false_eq_true, if_false, if_true,
      if_neg hquote, he d List.mem_cons_self, hread]

/-- The reading goes along with the writing; the spaces before are what was read of them so far. -/
theorem exists_readDoubleQuoted_writeEscaped (hgap : ∀ c ∈ gap, c = ' ') (hm : 0 < m.column)
    (cs rest : List Char) :
    ∃ m', readDoubleQuoted 0 false gap m (cs.flatMap writeEscaped ++ '"' :: rest) =
      some (gap ++ cs, ⟨m', rest⟩) := by
  have hnil : ∀ c ∈ ([] : List Char), c = ' ' := nofun
  -- The spaces read so far wait in `gap` until a character that is none: the induction is for every
  -- gap.
  induction cs generalizing gap m with
  | nil =>
    refine ⟨m.skip 1, ?_⟩
    rw [List.flatMap_nil, List.nil_append, readDoubleQuoted_end hm, foldGap_spaces hgap,
      List.append_nil]
  | cons c cs ih =>
    rw [List.flatMap_cons, List.append_assoc]
    rcases writeEscaped_cases c with ⟨hwrite, hprintable, hbreak, hquote, hslash⟩ |
      ⟨e, hwrite, hne, he, hread⟩
    · rw [hwrite, List.singleton_append]
      by_cases hspace : c = ' '
      · subst hspace
        obtain ⟨m', hm'⟩ := ih (forall_mem_append_space hgap) (Mark.column_after_pos hbreak m)
        exact ⟨m', by rw [readDoubleQuoted_gap rfl, hm', List.append_assoc]; rfl⟩
      · have hc : isGap c = false := by
          rw [isGap_eq_of_isPrintable hprintable hbreak, beq_eq_false_iff_ne.2 hspace]
        obtain ⟨m', hm'⟩ := ih hnil (Mark.column_after_pos hbreak m)
        exact ⟨m', by rw [readDoubleQuoted_char hc hm hquote hslash, hm', foldGap_spaces hgap]; rfl⟩
    · obtain ⟨m₁, hm₁, hescape⟩ := exists_readDoubleQuoted_escape hne (fun d hd => (he d hd).2)
        (hread (cs.flatMap writeEscaped ++ '"' :: rest)) hm gap
      obtain ⟨m', hm'⟩ := ih hnil hm₁
      exact ⟨m', by rw [hwrite, List.cons_append, hescape, hm', foldGap_spaces hgap]; rfl⟩

/-- What was written in double quotes is read back. -/
theorem exists_readDoubleQuoted (hm : 0 < m.column) (cs rest : List Char) :
    ∃ m', readDoubleQuoted 0 false [] m (cs.flatMap writeEscaped ++ '"' :: rest) =
      some (cs, ⟨m', rest⟩) :=
  exists_readDoubleQuoted_writeEscaped (by simp) hm cs rest

end SymbolPaths.Yaml
