import SymbolPaths.Proofs.Symbol.Traversal

/-!
# What outlines show

Symbols are printed by two recursions over the links to children, one that makes indented lines
and one that makes records within records. What these come to is said without a bound on their
depth (`Prints`, `Describes`). Both go through the symbols as the first walk does, and the place
of each symbol, by its indentation or by the records around it, is that under its parent.

* `lineText`: what is printed for a symbol at a level, which `length_blanks_lineText` reads back;
* `Shows.prints_iff`, `Shows.describes_iff`: the outline is the whole of what is printed;
* `Forest.find?_withAbove`: in a forest that is written row by row, the parent is the last row
  before that is indented less;
* `Shows.withAbove_eq`: what is above a symbol in the outline is what is around it;
* `isRendered_build`: all this for a built tree (`IsRendered`).

What is printed is to tell the tree, so each statement has two halves: what the lines or records
are, and how parents and levels are found again from them alone. For lines the level is half the
number of blanks in front, if names begin with none, and the parent of a row is the last row
before it with a smaller level. For records the parent is the record around. Neither half mentions
the recursion that prints.
-/

namespace SymbolPaths

/-- An entry of two lists together is in the first one, or in the second one behind the first. -/
theorem append_eq_append_cons {α : Type} {s t l₁ l₂ : List α} {a : α}
    (h : s ++ t = l₁ ++ a :: l₂) :
    (∃ l, l₁ = s ++ l ∧ t = l ++ a :: l₂) ∨ ∃ l, s = l₁ ++ a :: l := by
  rcases List.append_eq_append_iff.1 h with ⟨l, hl, ht⟩ | ⟨l, hs, hl⟩
  · exact .inl ⟨l, hl, ht⟩
  · cases l with
    | nil => exact .inl ⟨[], by simpa using hs.symm, by simpa using hl.symm⟩
    | cons b l =>
      obtain ⟨rfl, _⟩ := List.cons_eq_cons.1 hl
      exact .inr ⟨l, hs⟩

/-! ### Forests row by row -/

namespace Forest

variable {α : Type} {f : Forest α} {above w : List α} {a : α} {l₁ l₂ : List (List α × α)}

/-- The values in preorder, each with those above it, outermost first, for a forest that has
    `above` above all of it. -/
def withAbove (above : List α) : Forest α → List (List α × α)
  | nil => []
  | cons a below after =>
    (above, a) :: (below.withAbove (above ++ [a]) ++ after.withAbove above)

theorem length_le_of_mem_withAbove (h : (w, a) ∈ f.withAbove above) : above.length ≤ w.length := by
  induction f generalizing above with
  | nil => cases h
  | cons b below after ihb iha =>
    rw [withAbove, List.mem_cons, List.mem_append] at h
    rcases h with h | h | h
    · exact Nat.le_of_eq (congrArg (·.1.length) h).symm
    · have := ihb h
      rw [List.length_append] at this
      exact Nat.le_of_add_right_le this
    · exact iha h

/-- No row of a forest is indented less than its first ones. -/
theorem find?_eq_none_of_length_le (h : w.length ≤ above.length) :
    (f.withAbove above).reverse.find? (fun e => e.1.length < w.length) = none := by
  rw [List.find?_eq_none]
  intro e he
  have := length_le_of_mem_withAbove (List.mem_reverse.1 he)
  simp only [decide_eq_true_eq]
  omega

/-- The last row before a row that is indented less has what is next above that one, if anything
    in the forest is. -/
theorem find?_withAbove (h : f.withAbove above = l₁ ++ (w, a) :: l₂) :
    ∃ v, w = above ++ v ∧
      (l₁.reverse.find? fun e => e.1.length < w.length).map (·.2) = v.getLast? := by
  induction f generalizing above l₁ l₂ with
  | nil => simp [withAbove] at h
  | cons b below after ihb iha =>
    rw [withAbove] at h
    cases l₁ with
    | nil =>
      obtain ⟨hfirst, _⟩ := List.cons_eq_cons.1 h
      exact ⟨[], by simpa using (congrArg (·.1) hfirst).symm, rfl⟩
    | cons e l₁ =>
      obtain ⟨rfl, hrest⟩ := List.cons_eq_cons.1 h
      rw [List.reverse_cons, List.find?_append]
      rcases append_eq_append_cons hrest with ⟨l, rfl, hafter⟩ | ⟨l, hbelow⟩
      · -- What is below the first row is indented further than rows after it that have
        -- nothing more above them.
        obtain ⟨v, rfl, hv⟩ := iha hafter
        refine ⟨v, rfl, ?_⟩
        rw [List.reverse_append, List.find?_append]
        cases v with
        | nil =>
          rw [Option.map_eq_none_iff.1 hv, find?_eq_none_of_length_le (by simp)]
          simp
        | cons c v =>
          obtain ⟨e, he, _⟩ := Option.map_eq_some_iff.1 (hv.trans List.getLast?_cons)
          rw [← hv, he]
          rfl
      · obtain ⟨v, rfl, hv⟩ := ihb hbelow
        refine ⟨b :: v, by simp, ?_⟩
        rw [Option.map_or, hv, List.getLast?_cons]
        cases v.getLast? <;> simp

end Forest

/-! ### Documents record by record -/

namespace JsonValue

/-- The fields of a record. -/
abbrev Fields := List (String × JsonValue)

/-- Whether a document has no other ones in it. -/
def isPlain : JsonValue → Bool
  | number _ | text _ => true
  | list _ | record _ => false

mutual

/-- The plain fields of each record in a document, in the order in which the records are printed,
    with the plain fields of the records around it, outermost first. -/
def records (above : List Fields) : JsonValue → List (List Fields × Fields)
  | number _ | text _ => []
  | list items => recordsOfItems above items
  | record fields =>
    let plain := fields.filter (·.2.isPlain)
    (above, plain) :: recordsOfFields (above ++ [plain]) fields

/-- The records in the items of a list. -/
def recordsOfItems (above : List Fields) : List JsonValue → List (List Fields × Fields)
  | [] => []
  | item :: items => records above item ++ recordsOfItems above items

/-- The records in the fields of a record. -/
def recordsOfFields (above : List Fields) : Fields → List (List Fields × Fields)
  | [] => []
  | (_, value) :: fields => records above value ++ recordsOfFields above fields

end

end JsonValue

/-! ### Lines and documents of a forest -/

namespace Outline

/-- The level of a value is the number of those above it. -/
theorem levels_eq {α : Type} (f : Forest α) (above : List α) :
    levels above.length f = (f.withAbove above).map fun e => (e.1.length, e.2) := by
  induction f generalizing above with
  | nil => rfl
  | cons a below after ihb iha =>
    have hbelow := ihb (above ++ [a])
    rw [List.length_append, List.length_singleton] at hbelow
    rw [levels, Forest.withAbove, List.map_cons, List.map_append, hbelow, iha]

/-- What the document of a symbol has besides those below it. -/
def fieldsOf (T : SymbolTree) (n : Nat) : JsonValue.Fields := [
  ("name", .text (T.name n)), ("tag", .text (T.tag n)), ("path", .text (T.pathOf n).toText),
  ("start_line", .number (T.lineNumbers n).1), ("end_line", .number (T.lineNumbers n).2)]

/-- The records in the documents of a forest are those of its values, in one another as these are
    above one another. -/
theorem recordsOfItems_document {T : SymbolTree} {f : Forest Nat} (above : List Nat) :
    JsonValue.recordsOfItems (above.map (fieldsOf T)) (document T f) =
      (f.withAbove above).map fun e => (e.1.map (fieldsOf T), fieldsOf T e.2) := by
  induction f generalizing above with
  | nil => rfl
  | cons n below after ihb iha =>
    have hbelow := ihb (above ++ [n])
    rw [List.map_append, List.map_singleton] at hbelow
    rw [document, JsonValue.recordsOfItems, iha, Forest.withAbove, List.map_cons, List.map_append,
      ← hbelow]
    simp [JsonValue.records, JsonValue.recordsOfFields, JsonValue.isPlain, fieldsOf]

end Outline

namespace SymbolTree

variable {t : SourceTree} {found : List Occurrence} {text : String} {level n p : Nat}
  {ns : List Nat} {f : Forest Nat} {T : SymbolTree} {out : List String} {docs : List JsonValue}

/-! ### Lines -/

/-- The lines of a symbol as they are printed: the first and the last one, or the only one. -/
def rangeText (T : SymbolTree) (n : Nat) : String :=
  if (T.lineNumbers n).1 = (T.lineNumbers n).2 then toString (T.lineNumbers n).1
  else toString (T.lineNumbers n).1 ++ "-" ++ toString (T.lineNumbers n).2

/-- What is printed for a symbol: two blanks for each level, then its name, its lines and its
    path. -/
def lineText (T : SymbolTree) (level n : Nat) : String :=
  String.ofList (List.replicate (2 * level) ' ') ++
    (T.name n ++ " [" ++ T.rangeText n ++ "] " ++ (T.pathOf n).toText)

theorem line_eq (T : SymbolTree) (level n : Nat) :
    Outline.line T level n = T.lineText level n := by
  have hrange : T.lineRange n = T.rangeText n := rfl
  rw [Outline.line, lineText, hrange]
  simp only [String.append_assoc]

/-- The level of a line can be told from its blanks, unless the name begins with one. A blank
    more comes before the lines of a symbol without a name. -/
theorem length_blanks_lineText (hname : (T.name n).toList.head? ≠ some ' ') :
    ((T.lineText level n).toList.takeWhile (· = ' ')).length / 2 = level := by
  have hblanks : ∀ c ∈ List.replicate (2 * level) ' ', decide (c = ' ') = true := by simp
  rw [lineText, String.toList_append, String.toList_ofList,
    List.takeWhile_append_of_pos hblanks, List.length_append, List.length_replicate]
  cases hlist : (T.name n).toList with
  | nil =>
    have hrest : (T.name n ++ " [" ++ T.rangeText n ++ "] " ++ (T.pathOf n).toText).toList =
        ' ' :: '[' :: (T.rangeText n ++ "] " ++ (T.pathOf n).toText).toList := by
      simp [String.toList_append, hlist]
    rw [hrest, List.takeWhile_cons_of_pos (by simp), List.takeWhile_cons_of_neg (by simp),
      List.length_singleton]
    omega
  | cons c cs =>
    have hc : c ≠ ' ' := by simpa [hlist] using hname
    have hrest : (T.name n ++ " [" ++ T.rangeText n ++ "] " ++ (T.pathOf n).toText).toList =
        c :: (cs ++ (" [" ++ T.rangeText n ++ "] " ++ (T.pathOf n).toText).toList) := by
      simp [String.toList_append, hlist]
    rw [hrest, List.takeWhile_cons_of_neg (by simpa using hc), List.length_nil]
    omega

/-! ### Recursions without a bound -/

/-- What is printed for symbols, each indented by a level and before its children. -/
inductive Prints (T : SymbolTree) : Nat → List Nat → List String → Prop
  /-- For no symbols nothing is printed. -/
  | nil {level : Nat} : Prints T level [] []
  /-- The line of a symbol, then those of its children one level further in, then the rest. -/
  | cons {level n : Nat} {ns : List Nat} {below after : List String} :
      Prints T (level + 1) (T.children n) below → Prints T level ns after →
        Prints T level (n :: ns) (T.lineText level n :: (below ++ after))

/-- The documents of symbols, each with those of its children in it. -/
inductive Describes (T : SymbolTree) : List Nat → List JsonValue → Prop
  /-- For no symbols there are no documents. -/
  | nil : Describes T [] []
  /-- The document of a symbol has those of its children in it, and the rest follow. -/
  | cons {n : Nat} {ns : List Nat} {below after : List JsonValue} :
      Describes T (T.children n) below → Describes T ns after →
        Describes T (n :: ns)
          (.record (Outline.fieldsOf T n ++ [("children", .list below)]) :: after)

/-- The lines of a forest that shows symbols are what is printed for them. -/
theorem Shows.prints_iff (h : T.Shows ns f) : T.Prints level ns out ↔
    out = (Outline.levels level f).map fun (level, n) => T.lineText level n := by
  induction h generalizing level out with
  | nil =>
    refine ⟨fun hprints => ?_, fun hout => hout ▸ .nil⟩
    cases hprints
    rfl
  | cons _ _ ihb iha =>
    rw [Outline.levels, List.map_cons, List.map_append]
    constructor
    · rintro (_ | ⟨hbelow, hafter⟩)
      rw [ihb.1 hbelow, iha.1 hafter]
    · rintro rfl
      exact .cons (ihb.2 rfl) (iha.2 rfl)

theorem Shows.describes_iff (h : T.Shows ns f) :
    T.Describes ns docs ↔ docs = Outline.document T f := by
  induction h generalizing docs with
  | nil =>
    refine ⟨fun hdescribes => ?_, fun hdocs => hdocs ▸ .nil⟩
    cases hdescribes
    rfl
  | cons _ _ ihb iha =>
    rw [Outline.document]
    constructor
    · rintro (_ | ⟨hbelow, hafter⟩)
      rw [ihb.1 hbelow, iha.1 hafter]
      rfl
    · rintro rfl
      exact .cons (ihb.2 rfl) (iha.2 rfl)

/-! ### The outline of a built tree -/

/-- Above a symbol that is shown are the symbols around it. -/
theorem Shows.withAbove_eq (h : (build t found text).Shows ns f)
    (hparent : ∀ n ∈ ns, (build t found text).parent? n = some p) :
    f.withAbove (wayTo t found p) =
      f.preorder.map fun n => ((build t found text).ancestors n, n) := by
  induction h generalizing p with
  | nil => rfl
  | @cons n ns below after _ _ ihb iha =>
    have hn := hparent n List.mem_cons_self
    have hbelow := ihb (p := n) fun c hc => mem_children_iff.1 hc
    have hafter := iha fun c hc => hparent c (List.mem_cons_of_mem _ hc)
    rw [Forest.withAbove, ← wayTo_of_parent? hn, hbelow, hafter, Forest.preorder, List.map_cons,
      List.map_append, ancestors_of_parent? hn]

theorem withAbove_outline : (build t found text).outline.withAbove [] =
    (build t found text).depthFirst.map fun n => ((build t found text).ancestors n, n) := by
  rw [depthFirst_build]
  exact shows_outline.withAbove_eq (p := 0) fun _ => mem_children_iff.1

/-- The innermost symbol around a symbol is its parent, unless that is the root. -/
theorem getLast?_ancestors (h : (build t found text).parent? n = some p) :
    ((build t found text).ancestors n).getLast? = if p = 0 then none else some p := by
  rw [ancestors_of_parent? h]
  split
  · next hp => exact hp ▸ rfl
  · next hp =>
    obtain ⟨q, hq⟩ := exists_parent? ((eq_zero_or_isSymbol h).resolve_left hp)
    rw [wayTo_of_parent? hq, List.getLast?_concat]

/-- The last symbol before a symbol that has fewer symbols around it is its parent, unless that
    is the root. -/
theorem find?_depthFirst {l₁ l₂ : List Nat} (h : (build t found text).depthFirst = l₁ ++ n :: l₂)
    (hp : (build t found text).parent? n = some p) :
    l₁.reverse.find? (fun m => ((build t found text).ancestors m).length <
        ((build t found text).ancestors n).length) = if p = 0 then none else some p := by
  let row (n : Nat) : List Nat × Nat := ((build t found text).ancestors n, n)
  have hrows : (build t found text).outline.withAbove [] = l₁.map row ++ row n :: l₂.map row := by
    rw [withAbove_outline, h, List.map_append, List.map_cons]
  obtain ⟨v, hv, hfind⟩ := Forest.find?_withAbove hrows
  rw [List.nil_append] at hv
  rw [← hv, getLast?_ancestors hp, ← List.map_reverse, List.find?_map, Option.map_map] at hfind
  simpa [Function.comp_def, row] using hfind

theorem length_tags_pathOf (h : (build t found text).IsSymbol n) :
    ((build t found text).pathOf n).tags.length =
      ((build t found text).ancestors n).length + 1 := by
  obtain ⟨p, hp⟩ := exists_parent? h
  rw [pathOf_build, List.length_map, ancestors_of_parent? hp, wayTo_of_parent? hp,
    List.length_append, List.length_singleton]

/-- The lines of a forest, each with what is printed for its symbol. -/
theorem lines_eq_map (T : SymbolTree) (f : Forest Nat) :
    Outline.lines T f = (Outline.levels 0 f).map fun (level, n) => T.lineText level n :=
  List.map_congr_left fun (level, n) _ => line_eq T level n

/-- How the symbols of a tree are printed as lines and as documents. -/
structure IsRendered (T : SymbolTree) : Prop where
  /-- Both recursions come to their end, with what the outline has. -/
  prints_iff : ∀ out, T.Prints 0 (T.children 0) out ↔ out = Outline.lines T T.outline
  describes_iff : ∀ docs, T.Describes (T.children 0) docs ↔ docs = Outline.document T T.outline
  /-- The lines are those of the symbols in the order of the first walk, each indented by one
      level for each symbol around it. -/
  lines_eq : Outline.lines T T.outline =
    T.depthFirst.map fun n => T.lineText (T.ancestors n).length n
  /-- What is shown of a symbol is what the tree has of it. Lines are those of its span, counted
      from one. -/
  shown_eq : ∀ n s, T.get? n = some s →
    T.name n = s.name ∧ T.tag n = s.tag ∧ T.pathOf n = s.path ∧
      T.lineNumbers n = (s.span.first.row + 1, s.span.last.row + 1)
  /-- The blanks of its line tell how many symbols are around a symbol. -/
  length_blanks : ∀ n, (T.name n).toList.head? ≠ some ' ' →
    ((T.lineText (T.ancestors n).length n).toList.takeWhile (· = ' ')).length / 2 =
      (T.ancestors n).length
  /-- The records are those of the symbols in the same order, each in the records of the symbols
      around it. -/
  records_eq : (JsonValue.list (Outline.document T T.outline)).records [] =
    T.depthFirst.map fun n => ((T.ancestors n).map (Outline.fieldsOf T), Outline.fieldsOf T n)
  /-- Every symbol is there once. -/
  count_depthFirst : ∀ n, T.depthFirst.count n = if 0 < n ∧ n ≤ T.size then 1 else 0
  /-- The line of its parent is the last one before its own that is indented less. -/
  find?_depthFirst : ∀ l₁ n l₂ p, T.depthFirst = l₁ ++ n :: l₂ → T.parent? n = some p →
    l₁.reverse.find? (fun m => (T.ancestors m).length < (T.ancestors n).length) =
      if p = 0 then none else some p
  /-- The record of its parent is the innermost one around its own. -/
  getLast?_ancestors : ∀ n p, T.parent? n = some p →
    (T.ancestors n).getLast? = if p = 0 then none else some p
  /-- So the path of a symbol has one tag more than there are symbols around it. -/
  length_tags : ∀ n, T.IsSymbol n → (T.pathOf n).tags.length = (T.ancestors n).length + 1

theorem isRendered_build (t : SourceTree) (found : List Occurrence) (text : String) :
    (build t found text).IsRendered where
  prints_iff _ := by rw [lines_eq_map, shows_outline.prints_iff]
  describes_iff _ := shows_outline.describes_iff
  lines_eq := by
    have hlevels := Outline.levels_eq (build t found text).outline []
    rw [List.length_nil] at hlevels
    rw [lines_eq_map, hlevels, withAbove_outline, List.map_map, List.map_map]
    rfl
  shown_eq _ _ h := by
    rw [name, tag, pathOf, lineNumbers, h]
    exact ⟨rfl, rfl, rfl, rfl⟩
  length_blanks _ := length_blanks_lineText
  records_eq := by
    have hrecords : JsonValue.recordsOfItems []
        (Outline.document (build t found text) (build t found text).outline) = _ :=
      Outline.recordsOfItems_document []
    rw [JsonValue.records, hrecords, withAbove_outline, List.map_map]
    rfl
  count_depthFirst n := by
    rw [depthFirst_build, nodup_preorder_outline.count]
    simp only [mem_preorder_outline_iff, IsSymbol]
  find?_depthFirst _ _ _ _ h hp := find?_depthFirst h hp
  getLast?_ancestors _ _ h := getLast?_ancestors h
  length_tags _ h := length_tags_pathOf h

example : Outline.levels 0 (build typedefTree typedefSymbols "").outline =
    [(0, 4), (1, 2), (1, 3), (2, 1), (1, 5)] := by decide

end SymbolTree

end SymbolPaths
