import Mathlib.Data.List.Count
import SymbolPaths.Proofs.Link.Reading
import SymbolPaths.Proofs.Link.Surroundings
import SymbolPaths.Proofs.Link.Symbol

/-!
# Links to other symbols

Once a symbol is chosen, the link that was read is written again with the path of the symbol. It
is read back as the link to that symbol, in the form and with the caption it had. Only an inner
link is written without its caption, though one text would be read back with it.

* `toText_ne_nil`, `forall_mem_toText_iff`: what the path of a link is written with;
* `not_hasEnd_wiki`: a markdown link is not mistaken for a wiki link if there is one bracket in it;
* `parse?_withPath`: what is read of the link that is written;
* `parseInner?_eq_some_iff`: the one text that is an inner link with given parts;
* `parseInner?_withPath`: what is read of the inner link that is written.

The link that is written is the whole of its text, and what was typed behind the old one is left
out. So no longer end of the text can be a link, and there is no query to be read. What remains is
that the other form does not match instead, as wiki links are looked for first.
-/

namespace SymbolPaths

namespace TagPath

variable {path : TagPath}

theorem toText_ne_nil (hne : path.tags ≠ []) (htags : ∀ tag ∈ path.tags, tag ≠ "") :
    path.toText.toList ≠ [] := by
  obtain ⟨tags⟩ := path
  rw [toText, String.toList_ofList]
  cases tags with
  | nil => exact absurd rfl hne
  | cons tag tags =>
    cases tags with
    | nil => simpa [Text.join] using htags tag List.mem_cons_self
    | cons => simp [Text.join]

theorem forall_mem_toText_iff {P : Char → Prop} (hd : P delimiter) :
    (∀ c ∈ path.toText.toList, P c) ↔ ∀ tag ∈ path.tags, ∀ c ∈ tag.toList, P c := by
  rw [toText, String.toList_ofList, forall_mem_join_iff hd, List.forall_mem_map]

/-- Between the marks of a link can stand a path whose tags can. -/
theorem isWikiPart_toText (hne : path.tags ≠ [])
    (htags : ∀ tag ∈ path.tags, tag ≠ "" ∧ ∀ c ∈ tag.toList, LinkParts.isWikiChar c) :
    LinkParts.IsWikiPart path.toText.toList :=
  LinkParts.isWikiPart_iff.2 ⟨toText_ne_nil hne fun tag htag => (htags tag htag).1,
    (forall_mem_toText_iff (by decide)).2 fun tag htag => (htags tag htag).2⟩

end TagPath

namespace LinkParts

variable {kind : LinkKind} {s q : List Char} {p : LinkParts}

theorem Written.two_le_count (h : Written .wiki s p q) : 2 ≤ s.count ']' := by
  cases h with
  | wiki =>
    simp only [List.count_append, List.count_cons_self]
    omega

/-- The bracket behind the caption is the only one in a markdown link whose other parts have
    none. -/
theorem Written.count_eq_one (h : Written .markdown s p q) (hfile : ']' ∉ p.file)
    (hpath : ∀ path ∈ p.path, ']' ∉ path) (hq : ']' ∉ q) : s.count ']' = 1 := by
  cases h with
  | markdown hp =>
    have hcaption : ']' ∉ p.caption.getD [] := notMem_getD fun cs h => (hp.caption cs h).2
    have hmarked : ']' ∉ marked '#' p.path := notMem_marked (by decide) hpath
    simp [List.count_append, List.count_eq_zero.2 hcaption,
      List.count_eq_zero.2 hfile, List.count_eq_zero.2 hmarked, List.count_eq_zero.2 hq]

/-- A wiki link ends with two brackets. -/
theorem not_hasEnd_wiki (h : s.count ']' < 2) : ¬ HasEnd .wiki s := by
  rintro ⟨s', p, q, hs', hw⟩
  have := hw.two_le_count
  have := hs'.sublist.count_le ']'
  omega

/-- The parts of a link can be told from it. -/
theorem eq_of_toLink_eq {kind' : LinkKind} {s' q' : List Char} {p' : LinkParts}
    (h : p.toLink kind s q = p'.toLink kind' s' q') : p = p' := by
  have htext : Function.Injective String.ofList := fun _ _ => String.ofList_injective
  have hpath : Function.Injective fun cs => TagPath.parse (String.ofList cs) := by
    intro cs ds hcs
    have hwritten := congrArg TagPath.toText hcs
    rw [TagPath.toText_parse, TagPath.toText_parse] at hwritten
    exact htext hwritten
  obtain ⟨file, path, caption⟩ := p
  obtain ⟨file', path', caption'⟩ := p'
  simp only [toLink, CodeLink.mk.injEq] at h
  obtain ⟨_, _, hfile, hpaths, hcaptions, _⟩ := h
  rw [htext hfile, Option.map_injective hpath hpaths, Option.map_injective htext hcaptions]

end LinkParts

namespace CodeLink

open LinkParts

/-- What is written for another path is a link in the same form, which ends the text. -/
theorem exists_written_withPath {kind : LinkKind} {s q : List Char} {p : LinkParts}
    {path : TagPath} (h : Written kind s p q) (hkind : kind ≠ .inner)
    (hwiki : IsWikiPart path.toText.toList) (htarget : IsTargetPart path.toText.toList) :
    ∃ s', (p.toLink kind s q).withPath path = String.ofList s' ++ " " ∧
      Written kind s' { p with path := some path.toText.toList } [] := by
  cases h with
  | wiki hp =>
    have hp' : IsWiki { p with path := some path.toText.toList } :=
      ⟨hp.file, by rintro _ ⟨⟩; exact hwiki, hp.caption⟩
    refine ⟨_, ?_, .wiki hp' (by simp [IsBlankFree])⟩
    rw [← String.toList_inj]
    cases hcaption : p.caption <;> simp [withPath, toLink, marked, hcaption]
  | markdown hp =>
    have hp' : IsMarkdown { p with path := some path.toText.toList } :=
      ⟨hp.caption, hp.file, by rintro _ ⟨⟩; exact htarget⟩
    refine ⟨_, ?_, .markdown hp' (by simp [IsBlankFree])⟩
    rw [← String.toList_inj]
    cases hcaption : p.caption <;> simp [withPath, toLink, marked, hcaption]
  | inner => exact absurd rfl hkind

/-- A link that is written for the path of a symbol is read as the link to it, in the form and with
    the file and the caption of the link it was made from. -/
theorem parse?_withPath {text : String} {l : CodeLink} {path : TagPath}
    (h : parse? text = some l) (hfile : ']' ∉ l.file.toList) (hne : path.tags ≠ [])
    (htags : ∀ tag ∈ path.tags, tag ≠ "" ∧ ∀ c ∈ tag.toList, c ∉ ['>', '#', '|', ']', ')']) :
    ∃ s, l.withPath path = s ++ " " ∧
      parse? s = some { l with text := s, path := some path, query := none } := by
  have hnil := TagPath.toText_ne_nil hne fun tag htag => (htags tag htag).1
  -- The delimiter is none of the marks of a link, so the whole text of the path is free of them.
  have hmarks : ∀ c ∈ path.toText.toList, c ∉ ['#', '|', ']', ')'] :=
    (TagPath.forall_mem_toText_iff (by decide)).2 fun tag htag c hc hmem =>
      (htags tag htag).2 c hc (List.mem_cons_of_mem _ hmem)
  have hmark : ∀ c ∈ ['#', '|', ']', ')'], c ∉ path.toText.toList := fun c hc hmem =>
    hmarks c hmem hc
  have hwiki : IsWikiPart path.toText.toList :=
    ⟨hnil, hmark _ (by decide), hmark _ (by decide), hmark _ (by decide)⟩
  have htarget : IsTargetPart path.toText.toList :=
    ⟨hnil, hmark _ (by decide), hmark _ (by decide), hmark _ (by decide)⟩
  have hparse : TagPath.parse path.toText = path := by
    refine TagPath.parse_toText (fun tag htag hmem => ?_) ?_
    · exact (htags tag htag).2 _ hmem (by decide)
    · rintro rfl
      exact (htags "" (by simp)).1 rfl
  rcases parse?_eq_some_iff.1 h with ⟨s, p, q, hend, rfl⟩ | ⟨_, s, p, q, hend, rfl⟩
  · obtain ⟨s', htext, hw⟩ := exists_written_withPath hend.written (by decide) hwiki htarget
    rw [← String.toList_ofList (l := s')] at hw
    exact ⟨String.ofList s', htext,
      parse?_eq_some_iff.2 (.inl ⟨_, _, _, hw.isLongestEnd, by simp [toLink, hparse]⟩)⟩
  · obtain ⟨s', htext, hw⟩ := exists_written_withPath hend.written (by decide) hwiki htarget
    have hcount : s'.count ']' = 1 := by
      refine hw.count_eq_one (by simpa [toLink] using hfile) ?_ List.not_mem_nil
      rintro _ ⟨⟩
      exact hmark _ (by decide)
    rw [← String.toList_ofList (l := s')] at hw hcount
    exact ⟨String.ofList s', htext, parse?_eq_some_iff.2 (.inr ⟨not_hasEnd_wiki (by omega), _, _, _,
      hw.isLongestEnd, by simp [toLink, hparse]⟩)⟩

theorem parse?_withPath_nested :
    let text := "see [x [y](lib/a.ts#Greeter)gre"
    let l : CodeLink :=
      { kind := .markdown, text := "[x [y](lib/a.ts#Greeter)gre", file := "lib/a.ts"
        path := some ⟨["Greeter"]⟩, caption := some "x [y", query := some "gre" }
    let path : TagPath := ⟨["A", "b"]⟩
    (parse? text = some l ∧ ']' ∉ l.file.toList ∧ path.tags ≠ [] ∧
      ∀ tag ∈ path.tags, tag ≠ "" ∧ ∀ c ∈ tag.toList, c ∉ ['>', '#', '|', ']', ')']) ∧
    ∃ s, l.withPath path = s ++ " " ∧
      parse? s = some { l with text := s, path := some path, query := none } := by
  intro text l path
  have h : parse? text = some l := by decide
  have hfile : ']' ∉ l.file.toList := by decide
  have hne : path.tags ≠ [] := by decide
  have htags : ∀ tag ∈ path.tags, tag ≠ "" ∧ ∀ c ∈ tag.toList, c ∉ ['>', '#', '|', ']', ')'] := by
    simp [path]
  exact ⟨⟨h, hfile, hne, htags⟩, parse?_withPath h hfile hne htags⟩

/-! ### Inner links -/

section Inner

variable {p : LinkParts} {text s file : String} {path : TagPath} {caption : Option String}
  {l : CodeLink}

/-- The parts of an inner link that is the whole of a text are those it is written from. -/
theorem parseInner?_eq_toLink_iff :
    parseInner? s = some (p.toLink .inner s.toList []) ↔ Written .inner s.toList p [] := by
  constructor
  · intro h
    obtain ⟨p', hw, hl⟩ := written_of_parseInner? h
    rw [toLink, String.toList_ofList] at hw
    rwa [eq_of_toLink_eq hl]
  · intro h
    have hrest : ∀ c ∈ ([] : List Char).head?, c = ']' := by simp
    exact parseInner?_written h hrest (List.append_nil _).symm

/-- One text is, as a whole, the inner link to a symbol of a file under a caption. -/
theorem parseInner?_eq_some_iff (hfile : IsWikiPart file.toList)
    (hpath : IsWikiPart path.toText.toList) (hread : TagPath.parse path.toText = path)
    (hcaption : ∀ c ∈ caption, IsWikiPart c.toList) :
    parseInner? s = some ⟨.inner, s, file, some path, caption, none⟩ ↔
      s = file ++ "#" ++ path.toText ++ caption.elim "" ("|" ++ ·) := by
  have hp : IsWiki ⟨file.toList, some path.toText.toList, caption.map String.toList⟩ := by
    refine ⟨hfile, by rintro _ ⟨⟩; exact hpath, fun cs hcs => ?_⟩
    obtain ⟨c, hc, rfl⟩ := Option.mem_map.1 hcs
    exact hcaption c hc
  have hlink : CodeLink.mk .inner s file (some path) caption none =
      toLink ⟨file.toList, some path.toText.toList, caption.map String.toList⟩ .inner
        s.toList [] := by
    simp [toLink, hread, Function.comp_def]
  rw [hlink, parseInner?_eq_toLink_iff, ← String.toList_inj]
  constructor
  · intro hw
    generalize s.toList = cs at hw
    cases hw
    cases caption <;> simp [marked]
  · intro hs
    rw [hs]
    convert Written.inner hp using 1
    cases caption <;> simp [marked]

/-- What is found is an inner link without query, whose parts can stand between its marks. -/
theorem isWikiPart_of_parseInner? (h : parseInner? text = some l) :
    l.kind = .inner ∧ IsWikiPart l.file.toList ∧ (∀ c ∈ l.caption, IsWikiPart c.toList) ∧
      l.query = none := by
  obtain ⟨p, hw, hl⟩ := written_of_parseInner? h
  rw [hl]
  generalize l.text.toList = s at hw
  cases hw with
  | inner hp =>
    refine ⟨rfl, by simpa [toLink] using hp.file, fun c hc => ?_, rfl⟩
    obtain ⟨cs, hcs, rfl⟩ := Option.mem_map.1 hc
    rw [String.toList_ofList]
    exact hp.caption cs hcs

/-- An inner link that is written for the path of a symbol is read as a whole, as the link to it
    in the file of the link it was made from, but without caption. So it is that link with another
    path just if there was no caption; else only the text with the caption behind it would be. -/
theorem parseInner?_withPath (h : parseInner? text = some l) (hne : path.tags ≠ [])
    (htags : ∀ tag ∈ path.tags, tag ≠ "" ∧ ∀ c ∈ tag.toList, c ∉ ['>', '#', '|', ']']) :
    parseInner? (l.withPath path) =
      some { l with text := l.withPath path, path := some path, caption := none } ∧
    (parseInner? (l.withPath path) = some { l with text := l.withPath path, path := some path } ↔
      l.caption = none) ∧
    ∀ s, parseInner? s = some { l with text := s, path := some path } ↔
      s = l.withPath path ++ l.caption.elim "" ("|" ++ ·) := by
  obtain ⟨hkind, hfile, hcaption, hquery⟩ := isWikiPart_of_parseInner? h
  have hpath : IsWikiPart path.toText.toList := by
    refine TagPath.isWikiPart_toText hne fun tag htag => ⟨(htags tag htag).1, fun c hc => ?_⟩
    have hmarks := (htags tag htag).2 c hc
    simp only [List.mem_cons, not_or] at hmarks
    simp [isWikiChar, hmarks]
  have hread : TagPath.parse path.toText = path := by
    refine TagPath.parse_toText (fun tag htag hmem => ?_) ?_
    · exact (htags tag htag).2 TagPath.delimiter hmem (by decide)
    · rintro rfl
      exact (htags "" (by simp)).1 rfl
  have hwith : l.withPath path = l.file ++ "#" ++ path.toText := by rw [withPath, hkind]
  -- The new text is the file and the path, and no caption follows.
  have hwhole : parseInner? (l.withPath path) =
      some { l with text := l.withPath path, path := some path, caption := none } := by
    rw [hkind, hquery, parseInner?_eq_some_iff hfile hpath hread (by simp), hwith]
    exact String.append_empty.symm
  refine ⟨hwhole, ?_, fun s => ?_⟩
  · rw [hwhole]
    simp [eq_comm]
  · rw [hkind, hquery, parseInner?_eq_some_iff hfile hpath hread hcaption, hwith]

theorem parseInner?_withPath_inside :
    let text := "]#lib/a.ts#Greeter>hi|my x]] [["
    let l : CodeLink :=
      { kind := .inner, text := "lib/a.ts#Greeter>hi|my x", file := "lib/a.ts"
        path := some ⟨["Greeter", "hi"]⟩, caption := some "my x", query := none }
    let path : TagPath := ⟨["A", "b (c)"]⟩
    (parseInner? text = some l ∧ path.tags ≠ [] ∧
      ∀ tag ∈ path.tags, tag ≠ "" ∧ ∀ c ∈ tag.toList, c ∉ ['>', '#', '|', ']']) ∧
    parseInner? (l.withPath path) =
      some { l with text := l.withPath path, path := some path, caption := none } ∧
    (parseInner? (l.withPath path) = some { l with text := l.withPath path, path := some path } ↔
      l.caption = none) ∧
    ∀ s, parseInner? s = some { l with text := s, path := some path } ↔
      s = l.withPath path ++ l.caption.elim "" ("|" ++ ·) := by
  intro text l path
  have h : parseInner? text = some l := by decide
  have hne : path.tags ≠ [] := by decide
  have htags : ∀ tag ∈ path.tags, tag ≠ "" ∧ ∀ c ∈ tag.toList, c ∉ ['>', '#', '|', ']'] := by
    simp [path]
  exact ⟨⟨h, hne, htags⟩, parseInner?_withPath h hne htags⟩

/-- The caption of an inner link is lost when a symbol is chosen for it. -/
theorem parseInner?_withPath_captioned :
    let l : CodeLink := ⟨.inner, "a.py|x", "a.py", none, some "x", none⟩
    let path : TagPath := ⟨["A", "b"]⟩
    (parseInner? "a.py|x" = some l ∧ path.tags ≠ [] ∧
      ∀ tag ∈ path.tags, tag ≠ "" ∧ ∀ c ∈ tag.toList, c ∉ ['>', '#', '|', ']']) ∧
    l.withPath path = "a.py#A>b" ∧
    ¬∃ l', parseInner? (l.withPath path) = some l' ∧ l'.text = l.withPath path ∧
      l'.file = l.file ∧ l'.caption = l.caption ∧ l'.path = some path := by
  intro l path
  have hread : parseInner? (l.withPath path) =
      some ⟨.inner, "a.py#A>b", "a.py", some path, none, none⟩ := by decide
  refine ⟨⟨by decide, by decide, by simp [path]⟩, by decide, ?_⟩
  rintro ⟨l', hl', _, _, hcaption, _⟩
  obtain rfl := Option.some.inj (hread.symm.trans hl')
  exact absurd hcaption (by decide)

end Inner

end CodeLink

end SymbolPaths
