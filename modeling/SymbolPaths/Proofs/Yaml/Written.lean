import SymbolPaths.Proofs.Yaml.Block
import SymbolPaths.Proofs.Yaml.Plain
import SymbolPaths.Proofs.Yaml.Quoted
import SymbolPaths.Yaml.Document

/-!
# Written values are read back

A value that was written behind the colon of a key, or behind the hyphen of a sequence, is read
back as a node of its own: it does not look like a key, nor like the start of a sequence or of
anything else, and the next entry is not taken for a part of it.

* `readsValue_writeText`: a text is read back as a scalar with just that text, and only one that
  stands for nothing else is plain;
* `readsValue_plain`, `readsValue_brackets` and `readsValue_writeItems`: so are words, and
  sequences without and with items;
* `isPrintable_writeText`: a text is written with characters that may stand in a document.

A reader that finds a value tries one form after another, and plain text at last. So for each
style in which a text is written it has to be shown that the forms tried before are passed over.
They are told apart by the first character, except for keys, which are told by what stands behind
a scalar.
-/

namespace SymbolPaths.Yaml

variable {x : Char} {cs rest : List Char} {c c' : Cursor} {node : Node} {floor line fuel : Nat}
  {aligned fresh : Bool}

/-- Whether a node is read at a place, with the next entry behind it at the start of a line. -/
def ReadsValue (aligned fresh : Bool) (line fuel : Nat) (c : Cursor) (node : Node)
    (rest : List Char) : Prop :=
  ∃ c' m, readNode 1 aligned fresh line fuel Properties.none c = some (node, c') ∧
    c'.gap? false true = some (c.move ⟨m, rest⟩) ∧ m.column = 0

/-! ### Values in the line of their key -/

/-- Whether neither a collection, nor a property, an alias or a block starts with a character. -/
def startsScalar : List Char → Bool
  | [] => false
  | c :: cs =>
    !"&!*|>".toList.contains c && !((c == '-' || c == '?') && endsWord cs)

/-- Whether a value is over: at the end of its line or at the next entry. -/
def endsValue (cs : List Char) : Bool := cs.head? == some '\n' || startsEntry cs

/-- Behind a value that is over there is neither a blank nor a colon. -/
theorem head_of_endsValue (h : endsValue (x :: cs)) : isBlank x = false ∧ x ≠ ':' := by
  rw [endsValue, Bool.or_eq_true] at h
  rcases h with h | h
  · obtain rfl : x = '\n' := by simpa using h
    decide
  · exact ⟨(Bool.or_eq_false_iff.1 (isGap_of_startsEntry h)).1, ne_of_startsEntry h (by decide)⟩

/-- What ends before the next entry is no key. -/
theorem readKey?_eq_none (hread : readInline false 1 fuel c = some (node, c'))
    (hend : endsValue c'.rest) : readKey? 1 fuel c = none := by
  have hat : (c'.move (skipBlanks c'.mark c'.rest)).isAt ':' = false := by
    cases hrest : c'.rest with
    | nil => rfl
    | cons x cs =>
      rw [hrest] at hend
      obtain ⟨hblank, hcolon⟩ := head_of_endsValue hend
      rw [skipBlanks, hblank, if_neg Bool.false_ne_true]
      exact Bool.and_eq_false_iff.2 (.inl (beq_eq_false_iff_ne.2 hcolon))
  rw [readKey?, hread, Option.bind_eq_bind, Option.bind_some]
  simp only [hat, Bool.false_and, Bool.false_eq_true, if_false]

/-- What a scalar starts with is nothing else. -/
theorem of_startsScalar (h : startsScalar c.rest) :
    (∀ x ∈ ['&', '!', '*', '|', '>'], c.isBefore x = false) ∧ c.isAt '-' = false ∧
      c.isAt '?' = false ∧ c.rest ≠ [] := by
  cases hrest : c.rest with
  | nil =>
    rw [hrest] at h
    cases h
  | cons x cs =>
    rw [hrest, startsScalar, Bool.and_eq_true, Bool.not_eq_true', Bool.not_eq_true'] at h
    obtain ⟨hmark, hword⟩ := h
    refine ⟨fun y hy => ?_, ?_, ?_, List.cons_ne_nil x cs⟩
    · rw [Cursor.isBefore, hrest, List.head?_cons, beq_eq_false_iff_ne]
      rintro heq
      rw [Option.some.inj heq, List.contains_eq_mem, decide_eq_false_iff_not] at hmark
      exact hmark hy
    · rw [Spot.isAt, hrest]
      change (x == '-' && endsWord cs) = false
      cases hx : x == '-' with
      | false => rfl
      | true => simpa [hx] using hword
    · rw [Spot.isAt, hrest]
      change (x == '?' && endsWord cs) = false
      cases hx : x == '?' with
      | false => rfl
      | true => simpa [hx] using hword

/-- Where none of the signs of a property comes next, there is none. -/
theorem isBeforeProperty_eq_false (hbefore : ∀ x ∈ ['&', '!', '*'], c.isBefore x = false) :
    c.isBeforeProperty = false := by
  rw [Cursor.isBeforeProperty, hbefore '&' (by decide), hbefore '!' (by decide)]
  rfl

/-- Without properties a value is read from its content at once. -/
theorem readInline_of_isBefore (hbefore : ∀ x ∈ ['&', '!', '*'], c.isBefore x = false)
    (fuel : Nat) :
    readInline false floor (fuel + 1) c = readContent false floor fuel Properties.none c := by
  have hproperties : readProperties false c = some (Properties.none, c) := by
    simp [readProperties, isBeforeProperty_eq_false hbefore]
  rw [readInline, hbefore '*' (by decide), hproperties]
  rfl

/-- In the middle of a line a document is not over. -/
theorem isDone_eq_false (hne : c.rest ≠ []) (hcolumn : 0 < c.mark.column) : c.isDone = false := by
  rw [Spot.isDone, endsDocument_eq_false hcolumn, List.isEmpty_eq_false_iff.2 hne]
  rfl

/-- A scalar in the line of its key is read as such. -/
theorem readNode_of_readContent (hcolumn : 0 < c.mark.column) (hline : c.mark.line ≤ line)
    (hstart : startsScalar c.rest)
    (hread : ∀ fuel, readContent false 1 (fuel + 2) Properties.none c = some (node, c'))
    (hend : endsValue c'.rest) (fuel : Nat) :
    readNode 1 aligned fresh line (fuel + 4) Properties.none c = some (node, c') := by
  obtain ⟨hbefore, hhyphen, hquestion, hne⟩ := of_startsScalar hstart
  have hinline : ∀ x ∈ ['&', '!', '*'], c.isBefore x = false :=
    fun x hx => hbefore x (List.mem_append_left ['|', '>'] hx)
  -- Before a scalar is read as the value it is tried as a key, and has no colon behind it.
  have hkey : readKey? 1 (fuel + 3) c = none :=
    readKey?_eq_none ((readInline_of_isBefore hinline (fuel + 2)).trans (hread fuel)) hend
  have hdone : c.isDone = false := isDone_eq_false hne hcolumn
  have hbelow : decide (line < c.mark.line) = false := decide_eq_false (Nat.not_lt.2 hline)
  rw [readNode]
  simp only [hdone, hbelow, hhyphen, hquestion, hkey, isBeforeProperty_eq_false hinline,
    hbefore '*' (by decide), hbefore '|' (by decide), hbefore '>' (by decide),
    Option.isSome_none, Bool.or_false, Bool.false_and, Bool.false_eq_true, if_false]
  exact hread (fuel + 1)

/-- A scalar that ends at the end of its line has the next entry behind it. -/
theorem gap?_move_break (c : Cursor) (m : Mark) (hentry : startsEntry rest) :
    (c.move ⟨m, '\n' :: rest⟩).gap? false true = some (c.move ⟨m.after '\n', rest⟩) := by
  have hbreak : isBreak '\n' = true := rfl
  simp only [Cursor.gap?, Cursor.move, skipGap, hbreak, if_true, skipGap_of_startsEntry hentry,
    Option.map_some]

theorem gap?_move_of_startsEntry (c : Cursor) (m : Mark) (hentry : startsEntry rest) :
    (c.move ⟨m, rest⟩).gap? false true = some (c.move ⟨m, rest⟩) := by
  simp only [Cursor.gap?, Cursor.move, skipGap_of_startsEntry hentry, Option.map_some]

/-! ### Plain texts -/

/-- What may start a plain text is read as one, as no other form starts with it. -/
theorem readContent_plain {t : List Char} {s : Spot} (hstart : startsPlain false c.rest)
    (hread : readPlain false floor [] c.mark c.rest = some (t, s)) (fuel : Nat) :
    readContent false floor (fuel + 1) Properties.none c =
      some (.scalar .plain none (String.ofList t), c.move s) := by
  have hbefore : ∀ x ∈ ['[', '\x7b', '\'', '"'], c.isBefore x = false := by
    intro x hx
    rw [Cursor.isBefore, beq_eq_false_iff_ne]
    intro hhead
    obtain ⟨cs, hcs⟩ := List.head?_eq_some_iff.1 hhead
    have hindicator : ∀ x ∈ ['[', '\x7b', '\'', '"'],
        isIndicator x = true ∧ x ≠ '-' ∧ x ≠ '?' ∧ x ≠ ':' := by simp [isIndicator]
    simp [hcs, startsPlain, hindicator x hx] at hstart
  rw [readContent, hbefore '[' (by decide), hbefore '\x7b' (by decide), hbefore '\'' (by decide),
    hbefore '"' (by decide), hstart]
  simp only [Bool.false_eq_true, if_false, if_true, hread, Option.bind_eq_bind, Option.bind_some]
  rfl

/-- A text that may be written plain starts as a plain text does, and is over at its line feed. -/
theorem startsPlain_of_allowsPlain (h : allowsPlain cs) (hne : cs ≠ []) (rest : List Char) :
    startsPlain false (cs ++ '\n' :: rest) ∧ startsScalar (cs ++ '\n' :: rest) := by
  simp only [allowsPlain, Bool.and_eq_true, Bool.not_eq_true', List.all_eq_true] at h
  obtain ⟨⟨⟨⟨⟨⟨hprintable, hbreaks⟩, hhead⟩, -⟩, hstart⟩, -⟩, -⟩ := h
  cases cs with
  | nil => exact absurd rfl hne
  | cons x cs =>
    rw [marksStart, Bool.or_eq_false_iff] at hstart
    obtain ⟨hmark, hword⟩ := hstart
    have hgap : isGap x = false := by
      have hbreak : isBreak x = false :=
        Bool.eq_false_iff.2 (List.any_eq_false.1 hbreaks x List.mem_cons_self)
      rw [isGap_eq_of_isPrintable (hprintable x List.mem_cons_self) hbreak]
      simpa using hhead
    have hwords := endsWord_append_break (c := '\n') rfl cs rest
    rw [List.cons_append, startsPlain, startsScalar, hgap, hwords]
    by_cases hx : x ∈ ['?', ':', '-']
    · -- Such a mark is a part of the first word.
      have hmarks : "?:-".toList.contains x ∧ "&!*|>".toList.contains x = false ∧
          (x = '-' ∨ x = '?' ∨ x = ':') := by
        simp only [List.mem_cons, List.not_mem_nil, or_false] at hx
        rcases hx with rfl | rfl | rfl <;> decide
      obtain ⟨hmarks, hscalar, hplain⟩ := hmarks
      rw [hmarks, Bool.true_and] at hword
      rw [hword, hscalar]
      simpa [or_assoc] using .inr hplain
    · have hindicator : isIndicator x = false := by
        have hall : ∀ y ∈ "-?:,[]\x7b\x7d#&*!|>'\"%@\x60".toList, y ∈ ['?', ':', '-'] ∨
            "#,[]\x7b\x7d&*!|>'\"%@\x60".toList.contains y := by simp
        rw [isIndicator, List.contains_eq_mem, decide_eq_false_iff_not]
        intro hmem
        exact (hall x hmem).elim hx (Bool.eq_false_iff.1 hmark)
      have hscalar : "&!*|>".toList.contains x = false := by
        have hall : ∀ y ∈ "&!*|>".toList,
            "#,[]\x7b\x7d&*!|>'\"%@\x60".toList.contains y := by simp
        rw [List.contains_eq_mem, decide_eq_false_iff_not]
        exact fun hmem => Bool.eq_false_iff.1 hmark (hall x hmem)
      rw [hindicator, hscalar]
      simp only [List.mem_cons, not_or] at hx
      simp [hx]

/-- A text that may be written plain is read back as it is. -/
theorem readsValue_plain (h : allowsPlain cs) (hne : cs ≠ []) (hrest : c.rest = cs ++ '\n' :: rest)
    (hentry : startsEntry rest) (hcolumn : 0 < c.mark.column) (hline : c.mark.line ≤ line)
    (fuel : Nat) :
    ReadsValue aligned fresh line (fuel + 4) c (.scalar .plain none (String.ofList cs)) rest := by
  obtain ⟨hplain, hscalar⟩ := startsPlain_of_allowsPlain h hne rest
  obtain ⟨m', hm', hread⟩ := exists_readPlain h Nat.one_pos hentry c.mark
  rw [← hrest] at hplain hscalar hread
  have hend : endsValue rest := by rw [endsValue, hentry, Bool.or_true]
  exact ⟨_, m', readNode_of_readContent hcolumn hline hscalar
    (fun fuel => readContent_plain hplain hread (fuel + 1)) hend fuel,
    gap?_move_of_startsEntry c m' hentry, hm'⟩

/-! ### Quoted texts -/

/-- Between single quotes, with those in it doubled, a text on one line is read back. -/
theorem readsValue_single (h : allowsSingle cs) (hnot : '\n' ∉ cs)
    (hrest : c.rest = '\'' :: writeSingle false cs ++ '\'' :: '\n' :: rest)
    (hentry : startsEntry rest) (hcolumn : 0 < c.mark.column) (hline : c.mark.line ≤ line)
    (fuel : Nat) :
    ReadsValue aligned fresh line (fuel + 4) c (.scalar .other none (String.ofList cs)) rest := by
  have hcolumn' : 0 < (c.mark.skip 1).column := Nat.succ_pos _
  obtain ⟨m', hread⟩ := exists_readSingleQuoted h hnot hcolumn' rest
  have hcontent (fuel : Nat) : readContent false 1 (fuel + 1) Properties.none c =
      some (.scalar .other none (String.ofList cs), c.move ⟨m', '\n' :: rest⟩) := by
    rw [readContent]
    simp [Cursor.isBefore, hrest, hread]
    rfl
  have hscalar : startsScalar c.rest := by rw [hrest]; rfl
  exact ⟨_, m'.after '\n', readNode_of_readContent hcolumn hline hscalar
    (fun fuel => hcontent (fuel + 1)) rfl fuel,
    gap?_move_break c m' hentry, Mark.column_after_of_isBreak rfl m'⟩

/-- Between double quotes any text is read back: what may not stand there was escaped. -/
theorem readsValue_double (hrest : c.rest = '"' :: cs.flatMap writeEscaped ++ '"' :: '\n' :: rest)
    (hentry : startsEntry rest) (hcolumn : 0 < c.mark.column) (hline : c.mark.line ≤ line)
    (fuel : Nat) :
    ReadsValue aligned fresh line (fuel + 4) c (.scalar .other none (String.ofList cs)) rest := by
  have hcolumn' : 0 < (c.mark.skip 1).column := Nat.succ_pos _
  obtain ⟨m', hread⟩ := exists_readDoubleQuoted hcolumn' cs ('\n' :: rest)
  have hcontent (fuel : Nat) : readContent false 1 (fuel + 1) Properties.none c =
      some (.scalar .other none (String.ofList cs), c.move ⟨m', '\n' :: rest⟩) := by
    rw [readContent]
    simp [Cursor.isBefore, hrest, hread]
    rfl
  have hscalar : startsScalar c.rest := by rw [hrest]; rfl
  exact ⟨_, m'.after '\n', readNode_of_readContent hcolumn hline hscalar
    (fun fuel => hcontent (fuel + 1)) rfl fuel,
    gap?_move_break c m' hentry, Mark.column_after_of_isBreak rfl m'⟩

/-! ### Blocks -/

/-- A text of several lines is read back from a block below its key, with the indentation and the
    line feeds at its end that the header of the block tells. -/
theorem readsValue_block (h : allowsBlock cs) (hne : cs ≠ [])
    (hrest : c.rest = '|' :: blockSigns cs ++ '\n' :: (writeLines true cs ++ (endOf cs ++ rest)))
    (hentry : startsEntry rest) (hcolumn : 0 < c.mark.column) (hline : c.mark.line ≤ line)
    (fuel : Nat) :
    ReadsValue aligned fresh line (fuel + 4) c (.scalar .literal none (String.ofList cs)) rest := by
  obtain ⟨m', hm', hread⟩ := exists_readBlock h hne hentry (c.mark.skip 1)
  have hbefore (x : Char) (hx : x ≠ '|') : c.isBefore x = false := by
    rw [Cursor.isBefore, hrest]
    exact beq_eq_false_iff_ne.2 fun heq => hx (Option.some.inj heq).symm
  have hbar : c.isBefore '|' = true := by
    rw [Cursor.isBefore, hrest]
    rfl
  have hinline : ∀ x ∈ ['&', '!', '*'], c.isBefore x = false := by
    intro x hx
    refine hbefore x ?_
    rintro rfl
    exact absurd hx (by decide)
  -- A block is not a key.
  have hcontent : readContent false 1 (fuel + 2) Properties.none c = none := by
    rw [readContent, hbefore '[' (by decide), hbefore '\x7b' (by decide),
      hbefore '\'' (by decide), hbefore '"' (by decide), hrest]
    rfl
  have hkey : readKey? 1 (fuel + 3) c = none := by
    rw [readKey?, readInline_of_isBefore hinline, hcontent]
    rfl
  have hdone : c.isDone = false := isDone_eq_false (by simp [hrest]) hcolumn
  have hbelow : decide (line < c.mark.line) = false := decide_eq_false (Nat.not_lt.2 hline)
  have hhyphen : c.isAt '-' = false := by rw [Spot.isAt, hrest]; rfl
  have hquestion : c.isAt '?' = false := by rw [Spot.isAt, hrest]; rfl
  refine ⟨c.move ⟨m', rest⟩, m', ?_, gap?_move_of_startsEntry c m' hentry, hm'⟩
  have hdrop : c.toSpot.drop 1 =
      ⟨c.mark.skip 1, blockSigns cs ++ '\n' :: (writeLines true cs ++ (endOf cs ++ rest))⟩ := by
    rw [Spot.drop, hrest]
    rfl
  rw [readNode]
  simp only [hdone, hbelow, hhyphen, hquestion, hkey, isBeforeProperty_eq_false hinline,
    hbefore '*' (by decide), hbar,
    hbefore '>' (by decide), hdrop, hread, Option.isSome_none, Bool.or_false, Bool.false_and,
    Bool.false_eq_true, if_false, if_true, Option.bind_eq_bind, Option.bind_some]
  rfl

/-! ### Texts -/

/-- The style is plain only for texts that may be written so, and stand for nothing else. -/
theorem allowsPlain_of_style (h : TextStyle.of cs = .plain) :
    allowsPlain cs ∧ isValue cs = false ∧ cs ≠ [] := by
  have hplain : (allowsPlain cs && !isValue cs) = true := by
    rw [TextStyle.of] at h
    split at h
    · split at h <;> cases h
    · split at h
      · assumption
      · split at h <;> cases h
  rw [Bool.and_eq_true, Bool.not_eq_true'] at hplain
  refine ⟨hplain.1, hplain.2, ?_⟩
  rintro rfl
  cases hplain.2

/-- Single quotes are taken for texts of one line only. -/
theorem allowsSingle_of_style (h : TextStyle.of cs = .single) : allowsSingle cs ∧ '\n' ∉ cs := by
  rw [TextStyle.of] at h
  split at h
  · split at h <;> cases h
  · next hlines =>
    split at h
    · cases h
    · split at h
      · next hsingle => exact ⟨hsingle, by simpa using hlines⟩
      · cases h

/-- A block is taken only where its lines can be told from their indentation. -/
theorem allowsBlock_of_style (h : TextStyle.of cs = .block) : allowsBlock cs ∧ cs ≠ [] := by
  rw [TextStyle.of] at h
  split at h
  · next hlines =>
    split at h
    · next hblock =>
      refine ⟨hblock, ?_⟩
      rintro rfl
      cases hlines
    · cases h
  · split at h
    · cases h
    · split at h <;> cases h

/-- The form in which a text is read that was written in a style. -/
def TextStyle.form : TextStyle → ScalarForm
  | plain => .plain
  | block => .literal
  | _ => .other

/-- What a written text is read as. -/
def textNode (cs : List Char) : Node := .scalar (TextStyle.of cs).form none (String.ofList cs)

/-- A text is read back as a scalar that says just that. -/
theorem readsValue_writeText (hrest : c.rest = writeText cs ++ rest) (hentry : startsEntry rest)
    (hcolumn : 0 < c.mark.column) (hline : c.mark.line ≤ line) (fuel : Nat) :
    ReadsValue aligned fresh line (fuel + 4) c (textNode cs) rest := by
  rw [textNode]
  cases hstyle : TextStyle.of cs with
  | plain =>
    obtain ⟨hplain, -, hne⟩ := allowsPlain_of_style hstyle
    have htext : c.rest = cs ++ '\n' :: rest := by simp [hrest, writeText, hstyle]
    exact readsValue_plain hplain hne htext hentry hcolumn hline fuel
  | single =>
    obtain ⟨hsingle, hnot⟩ := allowsSingle_of_style hstyle
    have htext : c.rest = '\'' :: writeSingle false cs ++ '\'' :: '\n' :: rest := by
      simp [hrest, writeText, hstyle]
    exact readsValue_single hsingle hnot htext hentry hcolumn hline fuel
  | double =>
    have htext : c.rest = '"' :: cs.flatMap writeEscaped ++ '"' :: '\n' :: rest := by
      simp [hrest, writeText, hstyle]
    exact readsValue_double htext hentry hcolumn hline fuel
  | block =>
    obtain ⟨hblock, hne⟩ := allowsBlock_of_style hstyle
    have htext : c.rest =
        '|' :: blockSigns cs ++ '\n' :: (writeLines true cs ++ (endOf cs ++ rest)) := by
      simp [hrest, writeText, hstyle, endOf]
    exact readsValue_block hblock hne htext hentry hcolumn hline fuel

/-! ### Characters -/

theorem mem_margin (h : x ∈ margin) : x = ' ' := by simpa [margin] using h

/-- Nothing but spaces is added between single quotes, apart from quotes that are there already. -/
theorem mem_writeSingle {fresh : Bool} (h : x ∈ writeSingle fresh cs) : x ∈ cs ∨ x = ' ' := by
  have hmargin {fresh : Bool} (hx : x ∈ if fresh then margin else []) : x = ' ' := by
    cases fresh with
    | false => cases hx
    | true => exact mem_margin hx
  induction cs generalizing fresh with
  | nil => exact .inr (hmargin h)
  | cons c cs ih =>
    rw [writeSingle] at h
    split at h
    · rcases List.mem_cons.1 h with rfl | h
      · exact .inl List.mem_cons_self
      · exact (ih h).imp_left (List.mem_cons_of_mem c)
    · rw [List.mem_append, List.mem_append] at h
      rcases h with (h | h) | h
      · exact .inr (hmargin h)
      · obtain rfl : x = c := by split at h <;> simpa using h
        exact .inl List.mem_cons_self
      · exact (ih h).imp_left (List.mem_cons_of_mem c)

/-- Nothing but spaces is added in a block. -/
theorem mem_writeLines {fresh : Bool} (h : x ∈ writeLines fresh cs) : x ∈ cs ∨ x = ' ' := by
  induction cs generalizing fresh with
  | nil => cases h
  | cons c cs ih =>
    rw [writeLines] at h
    split at h
    · rcases List.mem_cons.1 h with rfl | h
      · exact .inl List.mem_cons_self
      · exact (ih h).imp_left (List.mem_cons_of_mem c)
    · rcases List.mem_append.1 h with h | h
      · cases fresh with
        | false => cases h
        | true => exact .inr (mem_margin h)
      · rcases List.mem_cons.1 h with rfl | h
        · exact .inl List.mem_cons_self
        · exact (ih h).imp_left (List.mem_cons_of_mem c)

/-- A header of a block has no other signs. -/
theorem mem_blockSigns (h : x ∈ blockSigns cs) : x ∈ ['2', '-', '+'] := by
  rw [blockSigns, List.mem_append] at h
  rcases h with h | h
  · split at h
    · exact List.mem_of_mem_take (i := 1) h
    · cases h
  · revert h
    split
    · simp +contextual
    · split <;> simp +contextual
    · split
      · simp +contextual
      · split <;> simp +contextual

/-- What is not printable is escaped, and escapes are printable. -/
theorem isPrintable_of_mem_writeEscaped {c : Char} (h : x ∈ writeEscaped c) : isPrintable x := by
  rcases writeEscaped_cases c with ⟨hwrite, hprintable, -⟩ | ⟨e, hwrite, -, he, -⟩
  · rw [hwrite, List.mem_singleton] at h
    exact h ▸ hprintable
  · rw [hwrite] at h
    rcases List.mem_cons.1 h with rfl | h
    · rfl
    · exact (he x h).1

/-- A text is written with characters that may stand in a document. -/
theorem isPrintable_writeText (cs : List Char) : ∀ c ∈ writeText cs, isPrintable c := by
  have hspaced {written : List Char} (hcs : ∀ c ∈ cs, isPrintable c)
      (h : ∀ c ∈ written, c ∈ cs ∨ c = ' ') : ∀ c ∈ written, isPrintable c :=
    fun c hc => (h c hc).elim (hcs c) fun heq => heq ▸ rfl
  rw [writeText]
  -- Plain, single and block style are chosen for printable texts; double style escapes the rest.
  cases hstyle : TextStyle.of cs with
  | plain =>
    have hplain := (allowsPlain_of_style hstyle).1
    simp only [allowsPlain, Bool.and_eq_true, List.all_eq_true] at hplain
    exact List.forall_mem_append.2 ⟨hplain.1.1.1.1.1.1, List.all_eq_true.1 rfl⟩
  | single =>
    have hsingle := (allowsSingle_of_style hstyle).1
    simp only [allowsSingle, Bool.and_eq_true, List.all_eq_true] at hsingle
    exact List.forall_mem_append.2 ⟨List.forall_mem_cons.2
      ⟨rfl, hspaced hsingle.1.1 fun _ => mem_writeSingle⟩, List.all_eq_true.1 rfl⟩
  | double =>
    refine List.forall_mem_append.2
      ⟨List.forall_mem_cons.2 ⟨rfl, fun x hx => ?_⟩, List.all_eq_true.1 rfl⟩
    obtain ⟨c, -, hc⟩ := List.mem_flatMap.1 hx
    exact isPrintable_of_mem_writeEscaped hc
  | block =>
    have hblock := (allowsBlock_of_style hstyle).1
    simp only [allowsBlock, Bool.and_eq_true, List.all_eq_true] at hblock
    have hsigns : ∀ c ∈ ['2', '-', '+'], isPrintable c := List.all_eq_true.1 rfl
    refine List.forall_mem_append.2 ⟨List.forall_mem_append.2 ⟨List.forall_mem_cons.2
      ⟨rfl, fun c hc => hsigns c (mem_blockSigns hc)⟩, List.forall_mem_cons.2
      ⟨rfl, hspaced hblock.1.1 fun _ => mem_writeLines⟩⟩, ?_⟩
    split
    · exact fun _ hc => absurd hc List.not_mem_nil
    · exact List.all_eq_true.1 rfl

/-! ### Words -/

/-- Letters and digits are printable. -/
theorem isPrintable_of_isAlphanum (h : x.isAlphanum) : isPrintable x := by
  have hbetween {l u : Char} (hl : 0x20 ≤ l.toNat) (hu : u.toNat ≤ 0x7E)
      (hx : l.val ≤ x.val ∧ x.val ≤ u.val) : 0x20 ≤ x.toNat ∧ x.toNat ≤ 0x7E :=
    ⟨Nat.le_trans hl hx.1, Nat.le_trans hx.2 hu⟩
  have hrange : 0x20 ≤ x.toNat ∧ x.toNat ≤ 0x7E := by
    rcases Bool.or_eq_true_iff.1 h with halpha | hdigit
    · rcases Bool.or_eq_true_iff.1 halpha with hupper | hlower
      · exact hbetween (l := 'A') (u := 'Z') (by decide) (by decide) (of_decide_eq_true hupper)
      · obtain ⟨hlow, hhigh⟩ := Bool.and_eq_true_iff.1 hlower
        exact hbetween (l := 'a') (u := 'z') (by decide) (by decide)
          ⟨of_decide_eq_true hlow, of_decide_eq_true hhigh⟩
    · obtain ⟨hlow, hhigh⟩ := Bool.and_eq_true_iff.1 hdigit
      exact hbetween (l := '0') (u := '9') (by decide) (by decide)
        ⟨of_decide_eq_true hlow, of_decide_eq_true hhigh⟩
  simp [isPrintable, hrange]

/-- There are no marks in a word that would end it. -/
theorem marksInside_of_isAlphanum (h : ∀ c ∈ cs, c.isAlphanum) : marksInside cs = false := by
  induction cs with
  | nil => rfl
  | cons c cs ih =>
    obtain ⟨-, hcs⟩ := List.forall_mem_cons.1 h
    cases cs with
    | nil => rfl
    | cons d rest =>
      have hne {x : Char} (hx : x.isAlphanum = false) : (d == x) = false := by
        rw [beq_eq_false_iff_ne]
        rintro rfl
        exact absurd (hx.symm.trans (hcs d List.mem_cons_self)) Bool.false_ne_true
      rw [marksInside, hne (by decide), hne (by decide), Bool.false_and, Bool.and_false]
      exact ih hcs

/-- Letters and digits mean nothing else. -/
theorem allowsPlain_of_isAlphanum (h : ∀ c ∈ cs, c.isAlphanum) : allowsPlain cs := by
  -- Every character that would forbid plain style is neither a letter nor a digit.
  have hnot {x : Char} (hx : x.isAlphanum = false) : x ∉ cs :=
    fun hmem => absurd (hx.symm.trans (h x hmem)) Bool.false_ne_true
  have hbreaks : cs.any isBreak = false := by
    simp only [List.any_eq_false, isBreak, Bool.or_eq_true, beq_iff_eq]
    rintro c hc ((rfl | rfl) | rfl) <;> exact hnot (by decide) hc
  have hfirst : cs.head?.any (· == ' ') = false := by
    rw [Option.any_eq_false]
    intro c hc
    rw [beq_eq_false_iff_ne]
    rintro rfl
    exact hnot (by decide) (List.mem_of_head? hc)
  have hlast : cs.getLast?.any (· == ' ') = false := by
    rw [Option.any_eq_false]
    intro c hc
    rw [beq_eq_false_iff_ne]
    rintro rfl
    exact hnot (by decide) (List.mem_of_getLast? hc)
  have hstart : marksStart cs = false := by
    cases cs with
    | nil => rfl
    | cons c cs =>
      have hmarks : ∀ x ∈ "#,[]\x7b\x7d&*!|>'\"%@\x60".toList ++ "?:-".toList,
          x.isAlphanum = false := by simp
      have hc : c ∉ "#,[]\x7b\x7d&*!|>'\"%@\x60".toList ++ "?:-".toList :=
        fun hmem => hnot (hmarks c hmem) List.mem_cons_self
      rw [List.mem_append, not_or] at hc
      simp only [marksStart, List.contains_eq_mem, decide_eq_false hc.1, decide_eq_false hc.2,
        Bool.false_and, Bool.or_false]
  have hrule : startsRule cs = false := by
    have hprefix {x : Char} {p : List Char} (hx : x.isAlphanum = false) (hmem : x ∈ p) :
        p.isPrefixOf cs = false :=
      Bool.eq_false_iff.2 fun hp => hnot hx ((List.isPrefixOf_iff_prefix.1 hp).subset hmem)
    rw [startsRule, hprefix (x := '-') rfl (by decide), hprefix (x := '.') rfl (by decide)]
    rfl
  have hprintable : cs.all isPrintable :=
    List.all_eq_true.2 fun c hc => isPrintable_of_isAlphanum (h c hc)
  rw [allowsPlain, hprintable, hbreaks, hfirst, hlast, hstart, marksInside_of_isAlphanum h, hrule]
  rfl

/-! ### Sequences -/

/-- A sequence without items is written in the line of its key. -/
theorem readsValue_brackets (hrest : c.rest = '[' :: ']' :: '\n' :: rest)
    (hentry : startsEntry rest) (hcolumn : 0 < c.mark.column) (hline : c.mark.line ≤ line)
    (fuel : Nat) :
    ReadsValue aligned fresh line (fuel + 4) c (.sequence []) rest := by
  have hcontent (fuel : Nat) : readContent false 1 (fuel + 2) Properties.none c =
      some (.sequence [], c.move ⟨(c.mark.skip 1).skip 1, '\n' :: rest⟩) := by
    have hgap : (c.drop 1).gap? true true = some (c.move ⟨c.mark.skip 1, ']' :: '\n' :: rest⟩) := by
      rw [Cursor.drop, Spot.drop, hrest]
      rfl
    rw [readContent, Cursor.isBefore, hrest, List.head?_cons, beq_self_eq_true,
      if_pos rfl, hgap,
      Option.bind_eq_bind, Option.bind_some, readParts]
    rfl
  have hscalar : startsScalar c.rest := by rw [hrest]; rfl
  exact ⟨_, _, readNode_of_readContent hcolumn hline hscalar hcontent rfl fuel,
    gap?_move_break c _ hentry, Mark.column_after_of_isBreak rfl _⟩

/-- Whether a value starts with a character, so that the gap before it ends there. -/
def startsValue : List Char → Bool
  | [] => false
  | c :: _ => !isGap c && c != '#'

/-- The gap before a value ends where the value starts. -/
theorem skipGap_of_startsValue (h : startsValue cs) (flow tabs : Bool) (m : Mark) :
    skipGap flow tabs false m cs = some ⟨m, cs⟩ := by
  cases cs with
  | nil => cases h
  | cons x cs =>
    rw [startsValue, Bool.and_eq_true, Bool.not_eq_true', bne_iff_ne] at h
    obtain ⟨hgap, hcomment⟩ := h
    have hbreak := isBreak_of_isGap_eq_false hgap
    have hblank : (x == ' ' || x == '\t') = false := (Bool.or_eq_false_iff.1 hgap).1
    rw [Bool.or_eq_false_iff, beq_eq_false_iff_ne, beq_eq_false_iff_ne] at hblank
    simp only [skipGap, hbreak, Bool.false_eq_true, if_false, if_neg hblank.1, if_neg hblank.2,
      if_neg hcomment]

/-- What starts a plain text starts a value. -/
theorem startsValue_of_startsPlain (h : startsPlain false cs) : startsValue cs := by
  cases cs with
  | nil => cases h
  | cons x cs =>
    rw [startsPlain, Bool.and_eq_true] at h
    have hcomment : x ≠ '#' := by
      rintro rfl
      simp [isIndicator] at h
    rw [startsValue, h.1, bne_iff_ne.2 hcomment]
    rfl

/-- Whatever its style, a written text starts a value. -/
theorem startsValue_writeText (cs rest : List Char) : startsValue (writeText cs ++ rest) := by
  rw [writeText]
  split
  · next hstyle =>
    obtain ⟨hplain, -, hne⟩ := allowsPlain_of_style hstyle
    rw [List.append_assoc]
    exact startsValue_of_startsPlain (startsPlain_of_allowsPlain hplain hne rest).1
  · rfl
  · rfl
  · rfl

/-- The items of a sequence. -/
def writeItems (texts : List (List Char)) : List Char :=
  texts.flatMap fun cs => '-' :: ' ' :: writeText cs

/-- An item is an entry that may come next. -/
theorem startsEntry_writeItems (texts : List (List Char)) (hentry : startsEntry rest) :
    startsEntry (writeItems texts ++ rest) := by
  cases texts with
  | nil => exact hentry
  | cons cs texts => rfl

theorem Cursor.move_move (c : Cursor) (s s' : Spot) : (c.move s).move s' = c.move s' := rfl

/-- A document is not over where an entry starts. -/
theorem isDone_of_startsEntry (hentry : startsEntry c.rest) (hne : c.rest ≠ []) :
    c.isDone = false := by
  rw [Spot.isDone, List.isEmpty_eq_false_iff.2 hne, endsDocument_of_startsEntry hentry]
  rfl

/-- The items are read one after another, by induction on those that are left. -/
theorem exists_readSequence {texts : List (List Char)} (hne : texts ≠ [])
    (hrest : c.rest = writeItems texts ++ rest) (hentry : startsEntry rest)
    (hend : rest.head? ≠ some '-') (hcolumn : c.mark.column = 0) (fuel : Nat) :
    ∃ m : Mark, readSequence 0 (texts.length + fuel + 4) c =
      some (texts.map textNode, c.move ⟨m, rest⟩) ∧ m.column = 0 := by
  induction texts generalizing c with
  | nil => exact absurd rfl hne
  | cons cs texts ih =>
    have hitems := startsEntry_writeItems texts hentry
    have hgap : (c.drop 1).gap? false false = some (c.move
        ⟨(c.mark.skip 1).after ' ', writeText cs ++ (writeItems texts ++ rest)⟩) := by
      have hspace : isBreak ' ' = false := rfl
      have hdrop : c.rest.drop 1 = ' ' :: (writeText cs ++ (writeItems texts ++ rest)) := by
        rw [hrest]
        simp [writeItems]
      rw [Cursor.gap?, Cursor.drop, Spot.drop, Cursor.move, hdrop, skipGap, hspace]
      simp only [Bool.false_eq_true, if_false, if_true,
        skipGap_of_startsValue (startsValue_writeText ..), Option.map_some]
      rfl
    have hmoved : (c.move ⟨(c.mark.skip 1).after ' ',
        writeText cs ++ (writeItems texts ++ rest)⟩).rest =
        writeText cs ++ (writeItems texts ++ rest) := rfl
    have hitem : ReadsValue false true c.mark.line (texts.length + fuel + 4)
        (c.move ⟨(c.mark.skip 1).after ' ', writeText cs ++ (writeItems texts ++ rest)⟩)
        (textNode cs) (writeItems texts ++ rest) :=
      readsValue_writeText hmoved hitems (Mark.column_after_pos rfl _) (Nat.le_refl c.mark.line) _
    obtain ⟨c', m, hread, hnext, hm⟩ := hitem
    rw [List.length_cons, show texts.length + 1 + fuel + 4 = texts.length + fuel + 4 + 1 by omega,
      readSequence]
    simp only [hgap, Option.bind_eq_bind, Option.bind_some, Nat.zero_add, hread, hnext,
      Cursor.move_move]
    -- A hyphen at the same column is the next item; what follows the last one has none.
    cases texts with
    | nil =>
      have hstop : (c.move ⟨m, rest⟩).isAt '-' = false := by
        cases rest with
        | nil => rfl
        | cons x cs =>
          have hx : x ≠ '-' := fun heq => hend (congrArg some heq)
          exact Bool.and_eq_false_iff.2 (.inl (beq_eq_false_iff_ne.2 hx))
      have hitems : writeItems [] ++ rest = rest := rfl
      refine ⟨m, ?_, hm⟩
      simp only [hitems, hstop, Bool.and_false, Bool.false_eq_true, if_false]
      rfl
    | cons cs' texts =>
      have hdone : (c.move ⟨m, writeItems (cs' :: texts) ++ rest⟩).isDone = false :=
        isDone_of_startsEntry hitems (List.cons_ne_nil '-' _)
      have hcolumn' : (c.move ⟨m, writeItems (cs' :: texts) ++ rest⟩).mark.column = 0 := hm
      have hhyphen : (c.move ⟨m, writeItems (cs' :: texts) ++ rest⟩).isAt '-' = true := rfl
      obtain ⟨m', hread', hm'⟩ := ih (c := c.move ⟨m, writeItems (cs' :: texts) ++ rest⟩)
        (List.cons_ne_nil cs' texts) rfl hcolumn'
      refine ⟨m', ?_, hm'⟩
      simp only [hdone, hcolumn', hhyphen, hread', Bool.not_false, Bool.and_true,
        beq_self_eq_true, if_true, Option.bind_some]
      rfl

/-- A sequence with items is written below its key, not indented further. -/
theorem readsValue_writeItems {texts : List (List Char)} (hne : texts ≠ [])
    (hrest : c.rest = writeItems texts ++ rest) (hentry : startsEntry rest)
    (hend : rest.head? ≠ some '-') (hcolumn : c.mark.column = 0) (hline : line < c.mark.line)
    (fuel : Nat) :
    ReadsValue true fresh line (texts.length + fuel + 5) c (.sequence (texts.map textNode))
      rest := by
  obtain ⟨m, hread, hm⟩ := exists_readSequence hne hrest hentry hend hcolumn fuel
  refine ⟨c.move ⟨m, rest⟩, m, ?_, gap?_move_of_startsEntry c m hentry, hm⟩
  obtain ⟨cs, texts, rfl⟩ := List.exists_cons_of_ne_nil hne
  have hdone : c.isDone = false :=
    isDone_of_startsEntry (hrest ▸ startsEntry_writeItems _ hentry) (by simp [hrest, writeItems])
  have hhyphen : c.isAt '-' = true := by
    rw [Spot.isAt, hrest]
    rfl
  -- The items stand at the column of the key, one before that of its value.
  rw [readNode]
  simp only [hdone, hhyphen, hcolumn, hline, hread, decide_true, Bool.or_true, Bool.and_true,
    Bool.true_and, Nat.zero_add, beq_self_eq_true, Bool.not_true, Bool.and_false, Bool.or_self,
    Bool.false_eq_true, if_false, if_true, Option.bind_eq_bind, Option.bind_some]
  rfl

end SymbolPaths.Yaml
