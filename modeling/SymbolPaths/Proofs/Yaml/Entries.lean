import SymbolPaths.Proofs.Yaml.Written

/-!
# Written documents are read back

A document that is a mapping is written as one entry after another, each with its key at the
start of a line and its value behind the colon. Such a document is read back as the mapping of
these keys and values, whatever the values are, as long as each of them is read back.

* `IsWritten`: whether a value is read back as a node;
* `IsLaidOut`: whether a text is the entries of a mapping, one after another;
* `readDocument?_of_isLaidOut`: such a text is read as the mapping.

What is behind a value decides whether it is over, so each statement has the rest of the document
in it: a value is read back with any rest that starts with an entry, or is empty. Keys are names
without any character that means something, and a document is one mapping at the left margin, so
the entries can be read one after another.
-/

namespace SymbolPaths.Yaml

variable {key value text rest : List Char} {node : Node} {entries : List (Node × Node)}
  {c : Cursor} {fuel : Nat}

/-! ### Keys -/

/-- Whether a key consists of small letters and hyphens, and starts with a letter. -/
structure IsKey (key : List Char) : Prop where
  /-- It starts with a letter. -/
  head : ∃ first rest, key = first :: rest ∧ first.isLower
  /-- It has letters and hyphens only. -/
  all : ∀ c ∈ key, c.isLower ∨ c = '-'
  /-- It is not too long to be a key. -/
  length_le : key.length ≤ keyLimit

/-- Whether an entry of a mapping, or nothing, comes next at the start of a line. -/
def startsKey : List Char → Bool
  | [] => true
  | c :: _ => c.isLower

/-- A key is an entry that may come next. -/
theorem startsEntry_of_startsKey (h : startsKey text) : startsEntry text := by
  cases text with
  | nil => rfl
  | cons x cs => exact Bool.or_eq_true_iff.2 (.inl h)

/-- A key starts with a small letter, so no sign stands before it. -/
theorem head?_of_startsKey (h : startsKey text) {x : Char} (hx : x.isLower = false) :
    text.head? ≠ some x := by
  intro hhead
  obtain ⟨cs, rfl⟩ := List.head?_eq_some_iff.1 hhead
  exact absurd (hx.symm.trans h) Bool.false_ne_true

/-- What starts with a key starts with a small letter, whatever follows. -/
theorem IsKey.startsKey (h : IsKey key) (rest : List Char) : startsKey (key ++ rest) := by
  obtain ⟨first, cs, rfl, hfirst⟩ := h.head
  exact hfirst

/-- A small letter is no sign that means something, so a key is read as a plain text. -/
theorem startsPlain_of_startsKey (h : startsKey text) (hne : text ≠ []) :
    startsPlain false text := by
  cases text with
  | nil => exact absurd rfl hne
  | cons x cs =>
    have hindicator : isIndicator x = false := by
      have hall : ∀ y ∈ "-?:,[]\x7b\x7d#&*!|>'\"%@\x60".toList, y.isLower = false := by simp
      rw [isIndicator, List.contains_eq_mem, decide_eq_false_iff_not]
      exact fun hmem => absurd ((hall x hmem).symm.trans h) Bool.false_ne_true
    rw [startsPlain, isGap_of_startsEntry (startsEntry_of_startsKey h), hindicator]
    rfl

/-- What a value starts with decides whether the colon before it ends a key. -/
theorem endsWord_append (hword : endsWord value) (hne : value ≠ []) (rest : List Char) :
    endsWord (value ++ rest) := by
  obtain ⟨x, xs, rfl⟩ := List.exists_cons_of_ne_nil hne
  exact hword

/-- What a key is read as. -/
def keyNode (key : List Char) : Node := .scalar .plain none (String.ofList key)

/-- A key is read up to its colon. It is on one line and short, so the colon is still allowed. -/
theorem readKey?_of_isKey (hkey : IsKey key) (hrest : c.rest = key ++ ':' :: rest)
    (hword : endsWord rest) (floor fuel : Nat) :
    readKey? floor (fuel + 2) c =
      some (keyNode key, c.move ⟨(c.mark.skip key.length).skip 1, rest⟩) := by
  have hstart : startsKey c.rest := hrest ▸ hkey.startsKey _
  have hbefore : ∀ x ∈ ['&', '!', '*'], c.isBefore x = false := by
    have hmarks : ∀ x ∈ ['&', '!', '*'], x.isLower = false := by simp
    intro x hx
    exact beq_eq_false_iff_ne.2 (head?_of_startsKey hstart (hmarks x hx))
  have hplain : startsPlain false c.rest := startsPlain_of_startsKey hstart (by simp [hrest])
  have hread : readPlain false floor [] c.mark c.rest =
      some (key, ⟨c.mark.skip key.length, ':' :: rest⟩) := by
    rw [hrest]
    exact readPlain_key hkey.all hword c.mark
  have hcolon : isBlank ':' = false := rfl
  have hlength : decide (c.mark.index + key.length ≤ c.mark.index + keyLimit) = true :=
    decide_eq_true (Nat.add_le_add_left hkey.length_le _)
  rw [readKey?, readInline_of_isBefore hbefore, readContent_plain hplain hread]
  simp only [Option.bind_eq_bind, Option.bind_some, Cursor.move, skipBlanks, hcolon,
    Bool.false_eq_true, if_false, Spot.isAt, hword, beq_self_eq_true, Bool.true_and, isKeyOf,
    Mark.skip, hlength, if_true]
  rfl

/-! ### Values -/

/-- Whether a value behind the colon of a key is read back as a node, with the next entry behind
    it at the start of a line. -/
structure IsWritten (value : List Char) (node : Node) : Prop where
  /-- The colon before it ends the key. -/
  endsWord : endsWord value
  /-- There is something behind the colon. -/
  ne_nil : value ≠ []
  /-- All its characters may stand in a document. -/
  isPrintable : ∀ c ∈ value, isPrintable c
  /-- It is read as the node, wherever it stands behind a key, and the next key is reached behind
      it. -/
  reads : ∀ (c : Cursor) (rest : List Char) (fuel : Nat), c.rest = value ++ rest →
    startsKey rest → 0 < c.mark.column → value.length + 5 ≤ fuel →
    ∃ c' m, ((c.gap? false true).bind
        (readNode 1 true false c.mark.line fuel Properties.none)) = some (node, c') ∧
      c'.gap? false true = some (c.move ⟨m, rest⟩) ∧ m.column = 0

/-- A value in the line of its key is read behind the space before it. -/
theorem isWritten_of_readsValue (hprintable : ∀ c ∈ value, isPrintable c)
    (hstart : ∀ rest, startsValue (value ++ rest))
    (hreads : ∀ (c : Cursor) (rest : List Char) (line fuel : Nat), c.rest = value ++ rest →
      startsEntry rest → 0 < c.mark.column → c.mark.line ≤ line →
      ReadsValue true false line (fuel + 4) c node rest) : IsWritten (' ' :: value) node where
  endsWord := rfl
  ne_nil := List.cons_ne_nil ' ' value
  isPrintable := List.forall_mem_cons.2 ⟨rfl, hprintable⟩
  reads c rest fuel hrest hkey hcolumn hfuel := by
    have hspace : isBreak ' ' = false := rfl
    have hgap : c.gap? false true = some (c.move ⟨c.mark.after ' ', value ++ rest⟩) := by
      rw [Cursor.gap?, hrest, List.cons_append, skipGap, hspace]
      simp only [Bool.false_eq_true, if_false, if_true, skipGap_of_startsValue (hstart rest),
        Option.map_some]
    have hmoved : (c.move ⟨c.mark.after ' ', value ++ rest⟩).rest = value ++ rest := rfl
    obtain ⟨fuel, rfl⟩ : ∃ n, fuel = n + 4 := ⟨fuel - 4, by omega⟩
    obtain ⟨c', m, hread, hnext, hm⟩ := hreads _ rest c.mark.line fuel hmoved
      (startsEntry_of_startsKey hkey) (Mark.column_after_pos rfl _) (Nat.le_refl c.mark.line)
    exact ⟨c', m, by rw [hgap, Option.bind_some, hread], hnext, hm⟩

/-- A text is a value in the line of its key. -/
theorem isWritten_text (cs : List Char) : IsWritten (' ' :: writeText cs) (textNode cs) :=
  isWritten_of_readsValue (isPrintable_writeText cs) (startsValue_writeText cs)
    fun _ _ _ fuel hrest hentry hcolumn hline =>
      readsValue_writeText hrest hentry hcolumn hline fuel

/-- A word is a value in the line of its key, and needs no quotes. -/
theorem isWritten_word {word : List Char} (hne : word ≠ []) (hword : ∀ c ∈ word, c.isAlphanum) :
    IsWritten (' ' :: (word ++ ['\n'])) (.scalar .plain none (String.ofList word)) := by
  have hplain := allowsPlain_of_isAlphanum hword
  have hprintable : ∀ c ∈ word ++ ['\n'], isPrintable c :=
    List.forall_mem_append.2
      ⟨fun c hc => isPrintable_of_isAlphanum (hword c hc), List.all_eq_true.1 rfl⟩
  refine isWritten_of_readsValue hprintable (fun rest => ?_)
    fun c rest _ fuel hrest hentry hcolumn hline => ?_
  · rw [List.append_assoc]
    exact startsValue_of_startsPlain (startsPlain_of_allowsPlain hplain hne rest).1
  · rw [List.append_assoc] at hrest
    exact readsValue_plain hplain hne hrest hentry hcolumn hline fuel

/-- The empty list is a value in the line of its key. -/
theorem isWritten_brackets : IsWritten [' ', '[', ']', '\n'] (.sequence []) :=
  isWritten_of_readsValue (List.all_eq_true.1 rfl) (fun _ => rfl)
    fun _ _ _ fuel hrest hentry hcolumn hline =>
      readsValue_brackets hrest hentry hcolumn hline fuel

/-- Each text of a list takes at least a character, so the length of what is written is enough fuel
    for all of them. -/
theorem length_le_writeItems (texts : List (List Char)) :
    texts.length ≤ (writeItems texts).length := by
  induction texts with
  | nil => exact Nat.le_refl 0
  | cons cs texts ih =>
    rw [writeItems] at ih ⊢
    rw [List.flatMap_cons, List.length_append, List.length_cons, List.length_cons,
      List.length_cons]
    omega

/-- What is written for a list consists of characters that may stand in a document. -/
theorem isPrintable_writeItems (texts : List (List Char)) :
    ∀ c ∈ writeItems texts, isPrintable c := by
  intro c hc
  obtain ⟨cs, -, hcs⟩ := List.mem_flatMap.1 hc
  have hmarks : ∀ c ∈ ['-', ' '], isPrintable c := List.all_eq_true.1 rfl
  exact List.forall_mem_append.2 ⟨hmarks, isPrintable_writeText cs⟩ c hcs

/-- A list that is not empty begins in the line after its key, and ends before the next key. -/
theorem isWritten_items {texts : List (List Char)} (hne : texts ≠ []) :
    IsWritten ('\n' :: writeItems texts) (.sequence (texts.map textNode)) where
  endsWord := rfl
  ne_nil := List.cons_ne_nil '\n' _
  isPrintable := List.forall_mem_cons.2 ⟨rfl, isPrintable_writeItems texts⟩
  reads c rest fuel hrest hkey hcolumn hfuel := by
    have hbreak : isBreak '\n' = true := rfl
    have hentry := startsEntry_of_startsKey hkey
    have hgap : c.gap? false true =
        some (c.move ⟨c.mark.after '\n', writeItems texts ++ rest⟩) := by
      rw [Cursor.gap?, hrest, List.cons_append, skipGap, hbreak, if_pos rfl,
        skipGap_of_startsEntry (startsEntry_writeItems texts hentry), Option.map_some]
    have hmoved : (c.move ⟨c.mark.after '\n', writeItems texts ++ rest⟩).rest =
        writeItems texts ++ rest := rfl
    have hlength := length_le_writeItems texts
    rw [List.length_cons] at hfuel
    obtain ⟨fuel, rfl⟩ : ∃ n, fuel = texts.length + n + 5 := ⟨fuel - texts.length - 5, by omega⟩
    obtain ⟨c', m, hread, hnext, hm⟩ := readsValue_writeItems hne hmoved hentry
      (head?_of_startsKey hkey rfl) (Mark.column_after_of_isBreak hbreak _)
      (Nat.lt_succ_self c.mark.line) fuel
    exact ⟨c', m, by rw [hgap, Option.bind_some, hread], hnext, hm⟩

/-! ### Mappings -/

/-- Whether a text is the entries of a mapping, one after another. -/
inductive IsLaidOut : List Char → List (Node × Node) → Prop
  /-- There are no entries. -/
  | nil : IsLaidOut [] []
  /-- An entry, and those after it. -/
  | cons {key value text : List Char} {node : Node} {entries : List (Node × Node)} :
      IsKey key → IsWritten value node → IsLaidOut text entries →
      IsLaidOut (key ++ ':' :: (value ++ text)) ((keyNode key, node) :: entries)

/-- The entries of a mapping start with a key, or there are none. -/
theorem IsLaidOut.startsKey (h : IsLaidOut text entries) : startsKey text := by
  cases h with
  | nil => rfl
  | cons hkey _ _ => exact hkey.startsKey _

/-- An entry is never written as nothing. -/
theorem IsLaidOut.ne_nil (h : IsLaidOut text entries) (hne : entries ≠ []) : text ≠ [] := by
  cases h with
  | nil => exact absurd rfl hne
  | cons _ _ _ => simp

/-- A key consists of characters that may stand in a document. -/
theorem IsKey.isPrintable (h : IsKey key) : ∀ c ∈ key, isPrintable c := by
  intro c hc
  rcases h.all c hc with hlower | rfl
  · have halpha : c.isAlpha := Bool.or_eq_true_iff.2 (.inr hlower)
    exact isPrintable_of_isAlphanum (Bool.or_eq_true_iff.2 (.inl halpha))
  · rfl

/-- A whole mapping consists of such characters, by induction on its entries. -/
theorem IsLaidOut.isPrintable (h : IsLaidOut text entries) : ∀ c ∈ text, isPrintable c := by
  induction h with
  | nil => exact fun _ hc => absurd hc List.not_mem_nil
  | cons hkey hvalue _ ih =>
    exact List.forall_mem_append.2 ⟨hkey.isPrintable, List.forall_mem_cons.2
      ⟨rfl, List.forall_mem_append.2 ⟨hvalue.isPrintable, ih⟩⟩⟩

/-- Where a key starts no sign is read. -/
theorem isAt_of_startsKey (h : startsKey c.rest) {x : Char} (hx : x.isLower = false) :
    c.isAt x = false := by
  have hhead := head?_of_startsKey h hx
  rw [Spot.isAt]
  cases hrest : c.rest with
  | nil => rfl
  | cons y cs =>
    rw [hrest] at hhead
    have hne : y ≠ x := fun heq => hhead (congrArg some heq)
    exact Bool.and_eq_false_iff.2 (.inl (beq_eq_false_iff_ne.2 hne))

/-- One entry is read as its key and its value, and the next key is reached behind it. -/
theorem exists_readEntry (hkey : IsKey key) (hvalue : IsWritten value node)
    (hrest : c.rest = key ++ ':' :: (value ++ rest)) (hstart : startsKey rest)
    (hfuel : value.length + 5 ≤ fuel) :
    ∃ c' m, readEntry 0 (fuel + 1) c = some ((keyNode key, node), c') ∧
      c'.gap? false true = some (c.move ⟨m, rest⟩) ∧ m.column = 0 := by
  have hword : endsWord (value ++ rest) := endsWord_append hvalue.endsWord hvalue.ne_nil rest
  have hquestion : c.isAt '?' = false := isAt_of_startsKey (hrest ▸ hkey.startsKey _) rfl
  obtain ⟨fuel, rfl⟩ : ∃ n, fuel = n + 2 := ⟨fuel - 2, by omega⟩
  have hread := readKey?_of_isKey hkey hrest hword 1 fuel
  obtain ⟨c', m, hnode, hnext, hm⟩ := hvalue.reads
    (c.move ⟨(c.mark.skip key.length).skip 1, value ++ rest⟩) rest (fuel + 2) rfl hstart
    (Nat.succ_pos _) hfuel
  refine ⟨c', m, ?_, hnext, hm⟩
  rw [readEntry, hquestion, if_neg Bool.false_ne_true]
  simp only [Nat.zero_add, hread, Option.bind_eq_bind, Option.bind_some]
  rw [← Option.bind_assoc, hnode, Option.bind_some]

/-- The entries are read one after another, by induction on those that are left. -/
theorem exists_readMapping (h : IsLaidOut text entries) (hrest : c.rest = text) (hne : entries ≠ [])
    (hfuel : text.length + 8 ≤ fuel) :
    ∃ m, readMapping 0 fuel c = some (entries, c.move ⟨m, []⟩) := by
  induction h generalizing c fuel with
  | nil => exact absurd rfl hne
  | @cons key value text node entries hkey hvalue hentries ih =>
    have hlength : (key ++ ':' :: (value ++ text)).length =
        key.length + (value.length + text.length) + 1 := by simp [Nat.add_assoc]
    rw [hlength] at hfuel
    obtain ⟨fuel, rfl⟩ : ∃ n, fuel = n + 2 := ⟨fuel - 2, by omega⟩
    have hvalueFuel : value.length + 5 ≤ fuel := by omega
    obtain ⟨c', m, hread, hnext, hm⟩ :=
      exists_readEntry hkey hvalue hrest hentries.startsKey hvalueFuel
    rw [readMapping, hread]
    simp only [Option.bind_eq_bind, Option.bind_some, hnext]
    -- Another entry starts at the column of this one, or the text is over.
    by_cases hmore : entries = []
    · subst hmore
      cases hentries
      exact ⟨m, rfl⟩
    · have hdone : (c.move ⟨m, text⟩).isDone = false :=
        isDone_of_startsEntry (startsEntry_of_startsKey hentries.startsKey)
          (hentries.ne_nil hmore)
      have hcolumn : (c.move ⟨m, text⟩).mark.column = 0 := hm
      have hmoreFuel : text.length + 8 ≤ fuel + 1 := by omega
      obtain ⟨m', hread'⟩ := ih (c := c.move ⟨m, text⟩) rfl hmore hmoreFuel
      refine ⟨m', ?_⟩
      simp only [hdone, hcolumn, hread', Bool.not_false, Bool.true_and, beq_self_eq_true, if_true,
        Option.bind_some]
      rfl

/-! ### Documents -/

/-- A document is read from its first character as it is, if all of them are printable: nothing in
    it is forbidden or taken for another line end. -/
theorem isReadable_of_isPrintable {x : Char} (h : isPrintable x) :
    isReadable x ∧ x ≠ '\r' ∧ x ≠ '\u0085' := by
  refine ⟨?_, ?_, ?_⟩
  · simp only [isPrintable, isReadable, Bool.or_eq_true, Bool.and_eq_true, beq_iff_eq] at h ⊢
    rcases h with (((h | h) | h) | h) | h
    · exact .inl (.inl (.inl (.inl (.inl (.inl (.inr h))))))
    · exact .inl (.inl (.inl (.inl (.inr h))))
    · exact .inl (.inl (.inr h))
    · exact .inl (.inr h.1)
    · exact .inr h
  · rintro rfl
    exact absurd h (by decide)
  · rintro rfl
    exact absurd h (by decide)

/-- Nothing is left to be skipped at the end. -/
theorem skipEnds_of_rest_eq_nil (h : c.rest = []) (fuel : Nat) : skipEnds fuel c = some c := by
  cases fuel with
  | zero => rfl
  | succ fuel =>
    have hrule : isRule '.' [] = false := rfl
    rw [skipEnds, h, hrule, Bool.and_false, if_neg Bool.false_ne_true]

/-- The root is a mapping if there is an entry. -/
theorem readRoot?_of_isLaidOut (h : IsLaidOut text entries) (hne : entries ≠ [])
    (hrest : c.rest = text) (hcolumn : c.mark.column = 0) (hfuel : text.length + 9 ≤ fuel) :
    readRoot? true fuel c = some (.mapping entries) := by
  have hstart : startsKey c.rest := hrest ▸ h.startsKey
  have hentry := startsEntry_of_startsKey hstart
  have hgap : c.gap? false false = some c := by
    rw [Cursor.gap?, skipGap_of_startsEntry hentry]
    rfl
  have hdone : c.isDone = false := isDone_of_startsEntry hentry (hrest ▸ h.ne_nil hne)
  obtain ⟨fuel, rfl⟩ : ∃ n, fuel = n + 3 := ⟨fuel - 3, by omega⟩
  -- A node that starts with a key is a mapping.
  have hkey : (readKey? 0 (fuel + 2) c).isSome := by
    cases h with
    | nil => exact absurd rfl hne
    | cons hkey hvalue _ =>
      rw [readKey?_of_isKey hkey hrest (endsWord_append hvalue.endsWord hvalue.ne_nil _) 0 fuel]
      rfl
  have hmappingFuel : text.length + 8 ≤ fuel + 2 := by omega
  obtain ⟨m, hread⟩ := exists_readMapping h hrest hne hmappingFuel
  rw [readRoot?, Bool.not_true, hgap, Option.bind_eq_bind, Option.bind_some, readNode]
  simp only [hdone, hkey, hcolumn, hread, isAt_of_startsKey hstart (x := '-') rfl, Nat.lt_irrefl,
    decide_false, Bool.false_and, Bool.or_false, Bool.or_true, Bool.false_eq_true, if_false,
    if_true, Option.bind_eq_bind, Option.bind_some]
  change (do
    let c' ← skipEnds (fuel + 3) (c.move ⟨m, []⟩)
    if c'.rest.isEmpty then some (Node.mapping entries) else none) = some (Node.mapping entries)
  rw [skipEnds_of_rest_eq_nil rfl]
  rfl

/-- An entry is no line of hyphens or dots, which would end the document. -/
theorem isRule_of_startsEntry (h : startsEntry text) (hcolumn : c.mark.column = 0) :
    isRule '-' text = false ∧ isRule '.' text = false := by
  have hends := endsDocument_of_startsEntry h c.mark
  rw [endsDocument, hcolumn] at hends
  exact Bool.or_eq_false_iff.1 hends

/-- A text that is the entries of a mapping is read as the mapping. -/
theorem readDocument?_of_isLaidOut (h : IsLaidOut text entries) (hne : entries ≠ []) :
    readDocument? text = some (.mapping entries) := by
  have hreadable (x : Char) (hx : x ∈ text) := isReadable_of_isPrintable (h.isPrintable x hx)
  have hnormal : normalize text = text := normalize_of_forall fun x hx => (hreadable x hx).2
  have hall : text.all isReadable = true :=
    List.all_eq_true.2 fun x hx => (hreadable x hx).1
  -- Nothing that may come before a document does.
  have hentry := startsEntry_of_startsKey h.startsKey
  have horder : skipOrderMark text = ⟨Mark.start, text⟩ := by
    cases htext : text with
    | nil => rfl
    | cons x xs =>
      have hx : x ≠ orderMark := ne_of_startsEntry (htext ▸ hentry) (by decide)
      rw [skipOrderMark, if_neg hx]
  have hdirective : (text.head? == some '%') = false :=
    beq_eq_false_iff_ne.2 (head?_of_startsKey h.startsKey rfl)
  obtain ⟨hhyphens, hdots⟩ :=
    isRule_of_startsEntry (c := ⟨⟨Mark.start, text⟩, [], []⟩) hentry rfl
  have hroot : readRoot? true (4 * text.length + 8) ⟨⟨Mark.start, text⟩, [], []⟩ =
      some (.mapping entries) := by
    have hlength := List.length_pos_iff.2 (h.ne_nil hne)
    exact readRoot?_of_isLaidOut h hne rfl rfl (by omega)
  have hdirectives : readDirectives ⟨false, []⟩ (4 * text.length + 8) ⟨Mark.start, text⟩ =
      some (⟨false, []⟩, ⟨Mark.start, text⟩) := by
    rw [readDirectives, hdirective, Bool.and_false, if_neg Bool.false_ne_true]
  rw [readDocument?]
  simp only [hnormal, hall, if_true, horder, skipGap_of_startsEntry hentry, Option.bind_eq_bind,
    Option.bind_some, hdirectives, Bool.and_false, Bool.false_eq_true, if_false, hhyphens, hdots,
    bne_self_eq_false, Bool.or_self]
  exact hroot

end SymbolPaths.Yaml
