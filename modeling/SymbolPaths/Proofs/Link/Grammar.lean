import Mathlib.Data.List.Infix
import Mathlib.Data.List.TakeWhile
import SymbolPaths.Link

/-!
# The grammar of links

A link is written from its parts, with brackets around them and marks between them (`Written`).
No character that ends a part can be in it, so a text that is a link is so in one way only, and
reading as many characters as possible finds that way.

* `wiki?_eq_some_iff`, `markdown?_eq_some_iff`: what is read is what is written;
* `Written.unique`: no text is written from two lists of parts in one form;
* `longestEnd?_eq_some_iff`: what is read at the end of a text.

`Written` is the grammar, and it does not say how to read. Reading goes from left to right and
stops each part at the first character that cannot be in it; that this is the only way to read is
due to the marks, each of which is a character that the part before it cannot have. Both
directions are by this argument, one part after another: what is written is read, and what is read
is written.
-/

namespace SymbolPaths

namespace LinkParts

/-- A part of a wiki link. -/
def IsWikiPart (cs : List Char) : Prop := cs ≠ [] ∧ '#' ∉ cs ∧ '|' ∉ cs ∧ ']' ∉ cs

/-- The file or the path in a markdown link. -/
def IsTargetPart (cs : List Char) : Prop := cs ≠ [] ∧ '#' ∉ cs ∧ '|' ∉ cs ∧ ')' ∉ cs

/-- The caption of a markdown link. -/
def IsCaption (cs : List Char) : Prop := cs ≠ [] ∧ ']' ∉ cs

/-- What is typed after a link. -/
def IsBlankFree (cs : List Char) : Prop := ∀ c ∈ cs, ¬ Text.isBlank c

/-- The parts that can stand between the brackets of a wiki link. -/
structure IsWiki (p : LinkParts) : Prop where
  /-- The file is there and has no mark in it. -/
  file : IsWikiPart p.file
  /-- So it is with the path, if there is one. -/
  path : ∀ path ∈ p.path, IsWikiPart path
  /-- So it is with the caption, if there is one. -/
  caption : ∀ caption ∈ p.caption, IsWikiPart caption

/-- The parts that can stand between the brackets of a markdown link. -/
structure IsMarkdown (p : LinkParts) : Prop where
  /-- The caption has no closing bracket in it, if there is one. -/
  caption : ∀ caption ∈ p.caption, IsCaption caption
  /-- The file is there and has nothing in it that ends it. -/
  file : IsTargetPart p.file
  /-- So it is with the path, if there is one. -/
  path : ∀ path ∈ p.path, IsTargetPart path

/-- A part behind its mark, or nothing where the part is left out. -/
def marked (mark : Char) : Option (List Char) → List Char
  | none => []
  | some part => mark :: part

/-- How links are written: the form, the text, the parts and the query. -/
inductive Written : LinkKind → List Char → LinkParts → List Char → Prop
  /-- Double brackets around the parts, and what was typed behind them. -/
  | wiki {p : LinkParts} {q : List Char} (hp : p.IsWiki) (hq : IsBlankFree q) :
    Written .wiki ('[' :: '[' :: p.file ++ marked '#' p.path ++ marked '|' p.caption ++
      ']' :: ']' :: q) p q
  /-- The caption in brackets, the file and the path in parentheses, and what was typed behind them.
      -/
  | markdown {p : LinkParts} {q : List Char} (hp : p.IsMarkdown) (hq : IsBlankFree q) :
    Written .markdown ('[' :: p.caption.getD [] ++ ']' :: '(' :: p.file ++ marked '#' p.path ++
      ')' :: q) p q
  /-- The parts alone. -/
  | inner {p : LinkParts} (hp : p.IsWiki) :
    Written .inner (p.file ++ marked '#' p.path ++ marked '|' p.caption) p []

variable {mark c : Char} {ok : Char → Bool} {s cs rest q : List Char} {p : LinkParts}
  {part : Option (List Char)}

/-! ### Characters of the parts -/

/-- What the reader takes for a part of a wiki link is one. -/
theorem isWikiPart_iff : IsWikiPart cs ↔ cs ≠ [] ∧ ∀ c ∈ cs, isWikiChar c := by
  simp only [IsWikiPart, isWikiChar, Bool.and_eq_true, bne_iff_ne]
  grind

/-- Nothing is passed over before a part of a wiki link. -/
theorem IsWikiPart.dropWhile_append (h : IsWikiPart cs) (rest : List Char) :
    (cs ++ rest).dropWhile (fun c => !isWikiChar c) = cs ++ rest := by
  obtain ⟨hne, hcs⟩ := isWikiPart_iff.1 h
  obtain ⟨c, cs, rfl⟩ := List.exists_cons_of_ne_nil hne
  exact List.dropWhile_cons_of_neg (by simp [hcs c List.mem_cons_self])

/-- What the reader takes for a file or a path in a markdown link is one. -/
theorem isTargetPart_iff : IsTargetPart cs ↔ cs ≠ [] ∧ ∀ c ∈ cs, isTargetChar c := by
  simp only [IsTargetPart, isTargetChar, Bool.and_eq_true, bne_iff_ne]
  grind

/-- What the reader takes for a caption of a markdown link is one. -/
theorem isCaption_iff : IsCaption cs ↔ cs ≠ [] ∧ ∀ c ∈ cs, isCaptionChar c := by
  simp only [IsCaption, isCaptionChar, bne_iff_ne]
  grind

theorem isQuery_iff : isQuery cs ↔ IsBlankFree cs := by
  simp [isQuery, IsBlankFree]

/-- A character that is in no part is in no marked part either, unless it is the mark. -/
theorem notMem_marked (hc : c ≠ mark) (h : ∀ cs ∈ part, c ∉ cs) : c ∉ marked mark part := by
  cases part with
  | none => exact List.not_mem_nil
  | some cs => exact List.not_mem_cons_of_ne_of_not_mem hc (h cs rfl)

theorem notMem_getD (h : ∀ cs ∈ part, c ∉ cs) : c ∉ part.getD [] := by
  cases part with
  | none => exact List.not_mem_nil
  | some cs => exact h cs rfl

/-! ### Reading marked parts -/

/-- A run of characters ends where a character follows that does not belong to it. -/
theorem takeWhile_append_of_head (hcs : ∀ c ∈ cs, ok c) (hrest : ∀ c ∈ rest.head?, ok c = false) :
    (cs ++ rest).takeWhile ok = cs := by
  rw [List.takeWhile_append_of_pos hcs]
  cases rest with
  | nil => exact List.append_nil cs
  | cons c rest =>
    rw [List.takeWhile_cons_of_neg (by simp [hrest c rfl]), List.append_nil]

/-- What follows a run of characters is what is left of the text. -/
theorem dropWhile_append_of_head (hcs : ∀ c ∈ cs, ok c) (hrest : ∀ c ∈ rest.head?, ok c = false) :
    (cs ++ rest).dropWhile ok = rest := by
  rw [List.dropWhile_append_of_pos hcs]
  cases rest with
  | nil => rfl
  | cons c rest => exact List.dropWhile_cons_of_neg (by simp [hrest c rfl])

theorem readMarked_of_ne (h : c ≠ mark) : readMarked mark ok (c :: cs) = (none, c :: cs) :=
  if_neg fun hmark => h hmark.1

/-- After a mark that something stands behind, that is read. -/
theorem readMarked_self (h : cs.takeWhile ok ≠ []) :
    readMarked mark ok (mark :: cs) = (some (cs.takeWhile ok), cs.dropWhile ok) :=
  if_pos ⟨rfl, h⟩

/-- A mark with nothing behind it stays where it is. -/
theorem readMarked_of_takeWhile_eq_nil (h : cs.takeWhile ok = []) :
    readMarked mark ok (mark :: cs) = (none, mark :: cs) :=
  if_neg fun hmark => hmark.2 h

/-- A marked part is read if what follows can neither belong to it nor be its mark. -/
theorem readMarked_marked (hpart : ∀ cs ∈ part, cs ≠ [] ∧ ∀ c ∈ cs, ok c)
    (hrest : ∀ c ∈ rest.head?, c ≠ mark ∧ ok c = false) :
    readMarked mark ok (marked mark part ++ rest) = (part, rest) := by
  cases part with
  | none =>
    cases rest with
    | nil => rfl
    | cons c rest => exact readMarked_of_ne (hrest c rfl).1
  | some cs =>
    obtain ⟨hne, hcs⟩ := hpart cs rfl
    have htake := takeWhile_append_of_head hcs fun c hc => (hrest c hc).2
    rw [marked, List.cons_append, readMarked_self (htake.symm ▸ hne), htake,
      dropWhile_append_of_head hcs fun c hc => (hrest c hc).2]

/-- Nothing is lost, and a part that is read is one. -/
theorem exists_of_readMarked (mark : Char) (ok : Char → Bool) (cs : List Char) :
    marked mark (readMarked mark ok cs).1 ++ (readMarked mark ok cs).2 = cs ∧
      ∀ part ∈ (readMarked mark ok cs).1, part ≠ [] ∧ ∀ c ∈ part, ok c := by
  cases cs with
  | nil => exact ⟨rfl, fun _ h => absurd h (Option.not_mem_none _)⟩
  | cons c cs =>
    rw [readMarked]
    split
    · next h =>
      refine ⟨by simp [marked, h.1], ?_⟩
      rintro part ⟨⟩
      exact ⟨h.2, fun _ hc => List.mem_takeWhile_imp hc⟩
    · exact ⟨rfl, fun _ h => absurd h (Option.not_mem_none _)⟩

/-! ### Reading links -/

theorem eq_or_mem_of_mem_head?_marked (h : c ∈ (marked mark part ++ rest).head?) :
    c = mark ∨ c ∈ rest.head? := by
  cases part with
  | none => exact .inr h
  | some => exact .inl (Option.some.inj h).symm

/-- A wiki link cannot be read only where there is no file. -/
theorem readWiki?_eq_none_iff : readWiki? cs = none ↔ cs.takeWhile isWikiChar = [] := by
  rw [readWiki?]
  split <;> simp_all

/-- The parts of a wiki link are read if they end at a bracket or with the text. -/
theorem readWiki?_written (hp : p.IsWiki) (hrest : ∀ c ∈ rest.head?, c = ']') :
    readWiki? (p.file ++ marked '#' p.path ++ marked '|' p.caption ++ rest) = some (p, rest) := by
  obtain ⟨hne, hfile⟩ := isWikiPart_iff.1 hp.file
  have hbracket : ∀ c ∈ rest.head?, c ≠ '|' ∧ isWikiChar c = false := by
    intro c hc
    rw [hrest c hc]
    decide
  have hbar : ∀ c ∈ (marked '|' p.caption ++ rest).head?, c ≠ '#' ∧ isWikiChar c = false := by
    intro c hc
    rcases eq_or_mem_of_mem_head?_marked hc with rfl | hc
    · decide
    · rw [hrest c hc]
      decide
  have hmark : ∀ c ∈ (marked '#' p.path ++ (marked '|' p.caption ++ rest)).head?,
      isWikiChar c = false := by
    intro c hc
    rcases eq_or_mem_of_mem_head?_marked hc with rfl | hc
    · decide
    · exact (hbar c hc).2
  simp only [List.append_assoc]
  rw [readWiki?, takeWhile_append_of_head hfile hmark, dropWhile_append_of_head hfile hmark,
    if_neg hne, readMarked_marked (fun path h => isWikiPart_iff.1 (hp.path path h)) hbar]
  simp only [readMarked_marked (fun caption h => isWikiPart_iff.1 (hp.caption caption h)) hbracket]

/-- What is read between the brackets of a wiki link is written there. -/
theorem isWiki_of_readWiki? (h : readWiki? cs = some (p, rest)) :
    p.IsWiki ∧ p.file ++ marked '#' p.path ++ marked '|' p.caption ++ rest = cs := by
  rw [readWiki?] at h
  split at h
  · cases h
  · next hne =>
    obtain ⟨hpath, hpathok⟩ := exists_of_readMarked '#' isWikiChar (cs.dropWhile isWikiChar)
    generalize readMarked '#' isWikiChar (cs.dropWhile isWikiChar) = path at *
    obtain ⟨hcaption, hcaptionok⟩ := exists_of_readMarked '|' isWikiChar path.2
    simp only [Option.some.injEq, Prod.mk.injEq] at h
    obtain ⟨rfl, rfl⟩ := h
    refine ⟨⟨isWikiPart_iff.2 ⟨hne, fun _ hc => List.mem_takeWhile_imp hc⟩,
      fun path h => isWikiPart_iff.2 (hpathok path h),
      fun caption h => isWikiPart_iff.2 (hcaptionok caption h)⟩, ?_⟩
    simp only [List.append_assoc, hcaption, hpath, List.takeWhile_append_dropWhile]

/-- The file and the path of a markdown link are read if they end at its bracket. -/
theorem readTarget?_written (hp : p.IsMarkdown) :
    readTarget? p.caption (p.file ++ marked '#' p.path ++ ')' :: q) = some (p, ')' :: q) := by
  obtain ⟨hne, hfile⟩ := isTargetPart_iff.1 hp.file
  have hbracket : ∀ c ∈ (')' :: q).head?, c ≠ '#' ∧ isTargetChar c = false := by
    rintro c ⟨⟩
    decide
  have hmark : ∀ c ∈ (marked '#' p.path ++ ')' :: q).head?, isTargetChar c = false := by
    intro c hc
    rcases eq_or_mem_of_mem_head?_marked hc with rfl | hc
    · decide
    · exact (hbracket c hc).2
  rw [List.append_assoc, readTarget?, takeWhile_append_of_head hfile hmark,
    dropWhile_append_of_head hfile hmark, if_neg hne,
    readMarked_marked (fun path h => isTargetPart_iff.1 (hp.path path h)) hbracket]

/-- An inner link is the parts of a wiki link and nothing else. -/
theorem readWiki?_of_inner (h : Written .inner s p q) : q = [] ∧ readWiki? s = some (p, []) := by
  cases h with
  | inner hp =>
    have hread := readWiki?_written hp (by simp : ∀ c ∈ ([] : List Char).head?, c = ']')
    exact ⟨rfl, by simpa using hread⟩

/-- What is read between the brackets of a markdown link is written there. -/
theorem isTarget_of_readTarget? {caption : Option (List Char)}
    (h : readTarget? caption cs = some (p, rest)) :
    p.caption = caption ∧ IsTargetPart p.file ∧ (∀ path ∈ p.path, IsTargetPart path) ∧
      p.file ++ marked '#' p.path ++ rest = cs := by
  rw [readTarget?] at h
  split at h
  · cases h
  · next hne =>
    obtain ⟨hpath, hpathok⟩ := exists_of_readMarked '#' isTargetChar (cs.dropWhile isTargetChar)
    simp only [Option.some.injEq, Prod.mk.injEq] at h
    obtain ⟨rfl, rfl⟩ := h
    refine ⟨rfl, isTargetPart_iff.2 ⟨hne, fun _ hc => List.mem_takeWhile_imp hc⟩,
      fun path h => isTargetPart_iff.2 (hpathok path h), ?_⟩
    rw [List.append_assoc, hpath, List.takeWhile_append_dropWhile]

theorem getD_ite_nil : (if cs = [] then none else some cs).getD [] = cs := by
  split <;> simp_all

theorem ite_getD_nil (h : ∀ cs ∈ part, cs ≠ []) :
    (if part.getD [] = [] then none else some (part.getD [])) = part := by
  cases part with
  | none => rfl
  | some cs => exact if_neg (h cs rfl)

/-- A text is read as a wiki link with some parts exactly if it is written from them. -/
theorem wiki?_eq_some_iff : wiki? s = some (p, q) ↔ Written .wiki s p q := by
  constructor
  · intro h
    rw [wiki?.eq_def] at h
    split at h
    · next cs =>
      split at h
      · next parts query hread =>
        split at h
        · next hquery =>
          obtain ⟨rfl, rfl⟩ := Prod.mk.inj (Option.some.inj h)
          obtain ⟨hp, rfl⟩ := isWiki_of_readWiki? hread
          exact .wiki hp (isQuery_iff.1 hquery)
        · cases h
      · cases h
    · cases h
  · intro h
    cases h with
    | wiki hp hq =>
      have hread : readWiki? (p.file ++ marked '#' p.path ++ marked '|' p.caption ++
          ']' :: ']' :: q) = some (p, ']' :: ']' :: q) := readWiki?_written hp (by simp)
      simp only [List.cons_append, wiki?, hread, isQuery_iff.2 hq, if_true]

/-- A text is read as a markdown link with some parts exactly if it is written from them. An empty
    caption is none, and is written as none. -/
theorem markdown?_eq_some_iff : markdown? s = some (p, q) ↔ Written .markdown s p q := by
  constructor
  · intro h
    rw [markdown?.eq_def] at h
    split at h
    · next cs =>
      split at h
      · next rest hcaption =>
        dsimp only at h
        split at h
        · next parts query hread =>
          split at h
          · next hquery =>
            obtain ⟨rfl, rfl⟩ := Prod.mk.inj (Option.some.inj h)
            obtain ⟨hcap, hfile, hpath, rfl⟩ := isTarget_of_readTarget? hread
            -- Put together, what was read is the whole text.
            have hcs : cs = parts.caption.getD [] ++ ']' :: '(' ::
                (parts.file ++ marked '#' parts.path ++ ')' :: query) := by
              rw [hcap, ← hcaption, getD_ite_nil, List.takeWhile_append_dropWhile]
            have hp : parts.IsMarkdown := by
              refine ⟨fun caption h => isCaption_iff.2 ?_, hfile, hpath⟩
              rw [hcap, Option.mem_ite_none_left] at h
              obtain ⟨hne, ⟨⟩⟩ := h
              exact ⟨hne, fun _ hc => List.mem_takeWhile_imp hc⟩
            rw [hcs]
            simpa using Written.markdown hp (isQuery_iff.1 hquery)
          · cases h
        · cases h
      · cases h
    · cases h
  · intro h
    cases h with
    | markdown hp hq =>
      have hcap : ∀ c ∈ p.caption.getD [], isCaptionChar c := by
        cases hcaption : p.caption with
        | none => simp
        | some caption => exact (isCaption_iff.1 (hp.caption caption hcaption)).2
      have hne : ∀ cs ∈ p.caption, cs ≠ [] := fun cs h => (hp.caption cs h).1
      have hbracket : ∀ rest c, c ∈ (']' :: rest).head? → isCaptionChar c = false := by
        rintro rest c ⟨⟩
        decide
      have hread : readTarget? p.caption (p.file ++ marked '#' p.path ++ ')' :: q) =
          some (p, ')' :: q) := readTarget?_written hp
      simp only [List.cons_append, List.append_assoc] at hread ⊢
      rw [markdown?, takeWhile_append_of_head hcap (hbracket _),
        dropWhile_append_of_head hcap (hbracket _)]
      simp only [ite_getD_nil hne, hread, isQuery_iff.2 hq, if_true]

/-- No text is written from two lists of parts in one form. -/
theorem Written.unique {kind : LinkKind} {p' : LinkParts} {q' : List Char}
    (h : Written kind s p q) (h' : Written kind s p' q') : p' = p ∧ q' = q := by
  cases kind with
  | wiki =>
    have heq := (wiki?_eq_some_iff.2 h').symm.trans (wiki?_eq_some_iff.2 h)
    exact Prod.mk.inj (Option.some.inj heq)
  | markdown =>
    have heq := (markdown?_eq_some_iff.2 h').symm.trans (markdown?_eq_some_iff.2 h)
    exact Prod.mk.inj (Option.some.inj heq)
  | inner =>
    obtain ⟨rfl, hread⟩ := readWiki?_of_inner h
    obtain ⟨rfl, hread'⟩ := readWiki?_of_inner h'
    exact ⟨(Prod.mk.inj (Option.some.inj (hread'.symm.trans hread))).1, rfl⟩

/-! ### The longest end -/

section LongestEnd

variable {β : Type} {make : List Char → Option β} {b : β}

/-- Nothing is found at the end of a text exactly if no end of it is a link. -/
theorem longestEnd?_eq_none_iff : longestEnd? make cs = none ↔ ∀ s, s <:+ cs → make s = none := by
  induction cs with
  | nil => simp [longestEnd?]
  | cons c cs ih =>
    rw [longestEnd?]
    simp only [List.suffix_cons_iff, forall_eq_or_imp, ← ih]
    cases make (c :: cs) <;> simp

/-- What is found is the longest end that is a link, by induction on the text: ends are tried from
    the whole text on. -/
theorem longestEnd?_eq_some_iff :
    longestEnd? make cs = some (s, b) ↔
      s <:+ cs ∧ make s = some b ∧ ∀ s', s' <:+ cs → s.length < s'.length → make s' = none := by
  -- The whole text is tried first, then its ends from the longest on.
  induction cs with
  | nil =>
    simp only [longestEnd?, Option.map_eq_some_iff, Prod.mk.injEq, List.suffix_nil]
    constructor
    · rintro ⟨b, hb, rfl, rfl⟩
      exact ⟨rfl, hb, by simp⟩
    · rintro ⟨rfl, hb, _⟩
      exact ⟨b, hb, rfl, rfl⟩
  | cons c cs ih =>
    rw [longestEnd?]
    cases hmake : make (c :: cs) with
    | none =>
      simp only [ih, List.suffix_cons_iff]
      constructor
      · rintro ⟨hs, hb, hmax⟩
        refine ⟨.inr hs, hb, ?_⟩
        rintro s' (rfl | hs') hlt
        · exact hmake
        · exact hmax s' hs' hlt
      · rintro ⟨rfl | hs, hb, hmax⟩
        · exact absurd (hmake.symm.trans hb) nofun
        · exact ⟨hs, hb, fun s' hs' => hmax s' (.inr hs')⟩
    | some b' =>
      simp only [Option.some.injEq, Prod.mk.injEq]
      constructor
      · rintro ⟨rfl, rfl⟩
        exact ⟨List.suffix_rfl, hmake, fun s' hs' hlt => absurd hs'.length_le (Nat.not_le.2 hlt)⟩
      · rintro ⟨hs, hb, hmax⟩
        rcases List.suffix_cons_iff.1 hs with rfl | hs
        · exact ⟨rfl, Option.some.inj (hmake.symm.trans hb)⟩
        · have hnone := hmax (c :: cs) List.suffix_rfl (Nat.lt_succ_of_le hs.length_le)
          exact absurd (hmake.symm.trans hnone) nofun

end LongestEnd

end LinkParts

end SymbolPaths
