import SymbolPaths.Proofs.Link.Expression
import SymbolPaths.Proofs.Link.Grammar

/-!
# Reading links

The forms of links are given by expressions whose parts have names. Reading a link character by
character finds what a search for its expression finds. For the forms that reach to the end of
the text this is because there is at most one way to match them at a place; for the inner form,
which may end anywhere, it is because no part ever gives a character back.

* `parse?_eq_searched?`, `parseInner?_eq_searched?`: reading is searching;
* `isGrammatical_parse?`: the link at the end of a text is its longest end that is one.

A link at the end of a text is searched for from the left, so the first place that has one gives
the longest end that is one. Reading goes the same way, but tries each end as a whole. For the two
to agree it takes that a match at a place goes on to the end of the text, which the expressions
for the end demand, and that its parts are those of the text, which is `Written.unique`.
-/

namespace SymbolPaths

namespace LinkParts

open Expression

/-- The names of the parts in the expressions of links. -/
inductive Name where
  | file
  | path
  | caption
  | query
  deriving DecidableEq

/-- A part behind its mark, both of which may be left out. -/
def markedExpression (mark : Char) (name : Name) (ok : Char → Bool) : Expression Name :=
  .optional (.seq (.char mark) (.named name (.several ok)))

/-- A query, which reaches to the end of the text. -/
def queryExpression : Expression Name :=
  .seq (.named .query (.many fun c => !Text.isBlank c)) .stop

/-- The expression of a form of links. -/
def expression : LinkKind → Expression Name
  | .wiki =>
    .seq (.char '[') <| .seq (.char '[') <| .seq (.named .file (.several isWikiChar)) <|
      .seq (markedExpression '#' .path isWikiChar) <|
      .seq (markedExpression '|' .caption isWikiChar) <|
      .seq (.char ']') <| .seq (.char ']') queryExpression
  | .markdown =>
    .seq (.char '[') <| .seq (.optional (.named .caption (.several isCaptionChar))) <|
      .seq (.char ']') <| .seq (.char '(') <| .seq (.named .file (.several isTargetChar)) <|
      .seq (markedExpression '#' .path isTargetChar) <| .seq (.char ')') queryExpression
  | .inner =>
    .seq (.named .file (.several isWikiChar)) <|
      .seq (markedExpression '#' .path isWikiChar) (markedExpression '|' .caption isWikiChar)

/-- The link of a match; it must have a file. -/
def linkOf? (kind : LinkKind) (m : TextMatch Name) : Option CodeLink :=
  (m.part? .file).map fun file =>
    { kind
      text := String.ofList m.text
      file := String.ofList file
      path := (m.part? .path).map fun path => TagPath.parse (String.ofList path)
      caption := (m.part? .caption).map String.ofList
      query := (m.part? .query).map String.ofList }

/-- The link of one form that a search finds. -/
def searched? (kind : LinkKind) (text : String) : Option CodeLink :=
  ((expression kind).search? text.toList).bind (linkOf? kind)

/-- A part with its name, if it is there. -/
def namedPart (name : Name) (part : Option (List Char)) : List (Name × List Char) :=
  (part.map (name, ·)).toList

/-- The named parts of a match, in the order in which they are written. -/
def namedParts (kind : LinkKind) (p : LinkParts) (q : List Char) : List (Name × List Char) :=
  match kind with
  | .wiki =>
    (.file, p.file) :: (namedPart .path p.path ++ (namedPart .caption p.caption ++ [(.query, q)]))
  | .markdown =>
    namedPart .caption p.caption ++ (.file, p.file) :: (namedPart .path p.path ++ [(.query, q)])
  | .inner => (.file, p.file) :: (namedPart .path p.path ++ namedPart .caption p.caption)

variable {mark : Char} {ok : Char → Bool} {kind : LinkKind} {name : Name} {s cs rest q : List Char}
  {p : LinkParts} {m : TextMatch Name} {b : Expression Name}

/-- The parts of a link are never empty. -/
theorem Written.ne_nil (h : Written kind s p q) :
    p.file ≠ [] ∧ (∀ path ∈ p.path, path ≠ []) ∧ ∀ caption ∈ p.caption, caption ≠ [] := by
  cases h with
  | wiki hp | inner hp =>
    exact ⟨hp.file.1, fun path h => (hp.path path h).1, fun caption h => (hp.caption caption h).1⟩
  | markdown hp =>
    exact ⟨hp.file.1, fun path h => (hp.path path h).1, fun caption h => (hp.caption caption h).1⟩

/-- A match with the parts of a link gives that link. -/
theorem linkOf?_namedParts (h : Written kind s p q) :
    linkOf? kind ⟨s, namedParts kind p q, rest⟩ = some (p.toLink kind s q) := by
  have hq : kind = .inner → q = [] := by
    cases h <;> simp
  obtain ⟨hfile, hpath, hcaption⟩ := h.ne_nil
  obtain ⟨file, path, caption⟩ := p
  cases kind <;> cases path <;> cases caption <;>
    simp_all [linkOf?, TextMatch.part?, toLink, namedParts, namedPart, Option.filter_some,
      apply_ite (Option.map String.ofList)]

/-! ### All ways to match -/

/-- A marked part may be there or not, and what follows it is matched in either case. -/
theorem mem_ways_marked_seq :
    m ∈ (Expression.seq (markedExpression mark name ok) b).ways cs ↔
      ∃ part rest, (∀ cs ∈ part, cs ≠ [] ∧ ∀ c ∈ cs, ok c) ∧ cs = marked mark part ++ rest ∧
        ∃ n ∈ b.ways rest,
          m = ⟨marked mark part ++ n.text, namedPart name part ++ n.parts, n.rest⟩ := by
  rw [markedExpression, mem_ways_optional_seq, mem_ways_seq]
  constructor
  · rintro (⟨m₁, h₁, n, hn, rfl⟩ | hm)
    · obtain ⟨_, rfl, m₂, h₂, rfl⟩ := mem_ways_char_seq.1 h₁
      obtain ⟨text, rest, htext, rfl, rfl⟩ := mem_ways_named_several.1 h₂
      exact ⟨some text, rest, by rintro _ ⟨⟩; exact htext, rfl, n, hn, rfl⟩
    · exact ⟨none, cs, nofun, rfl, m, hm, rfl⟩
  · rintro ⟨part, rest, hpart, rfl, n, hn, rfl⟩
    cases part with
    | none => exact .inr hn
    | some text =>
      have h : _ ∈ (Expression.named name (.several ok)).ways (text ++ rest) :=
        mem_ways_named_several.2 ⟨text, rest, hpart text rfl, rfl, rfl⟩
      exact .inl ⟨_, mem_ways_char_seq.2 ⟨_, rfl, _, h, rfl⟩, n, hn, rfl⟩

/-- The caption of a markdown link may be there or not, and has no mark of its own. -/
theorem mem_ways_caption_seq :
    m ∈ (Expression.seq (.optional (.named name (.several ok))) b).ways cs ↔
      ∃ part rest, (∀ cs ∈ part, cs ≠ [] ∧ ∀ c ∈ cs, ok c) ∧ cs = part.getD [] ++ rest ∧
        ∃ n ∈ b.ways rest,
          m = ⟨part.getD [] ++ n.text, namedPart name part ++ n.parts, n.rest⟩ := by
  rw [mem_ways_optional_seq, mem_ways_named_several_seq]
  constructor
  · rintro (⟨text, rest, htext, rfl, n, hn, rfl⟩ | hm)
    · exact ⟨some text, rest, by rintro _ ⟨⟩; exact htext, rfl, n, hn, rfl⟩
    · exact ⟨none, cs, nofun, rfl, m, hm, rfl⟩
  · rintro ⟨part, rest, hpart, rfl, n, hn, rfl⟩
    cases part with
    | none => exact .inr hn
    | some text => exact .inl ⟨text, rest, hpart text rfl, rfl, n, hn, rfl⟩

/-- A query is all that is left of the text, if there is no blank in it. -/
theorem mem_ways_query :
    m ∈ queryExpression.ways cs ↔ IsBlankFree cs ∧ m = ⟨cs, [(.query, cs)], []⟩ := by
  rw [queryExpression, mem_ways_seq]
  constructor
  · rintro ⟨m₁, h₁, m₂, h₂, rfl⟩
    obtain ⟨n, hn, rfl⟩ := mem_ways_named.1 h₁
    obtain ⟨text, rest, htext, rfl, rfl⟩ := mem_ways_many.1 hn
    obtain ⟨hrest, rfl⟩ := mem_ways_stop.1 h₂
    obtain rfl : rest = [] := hrest
    simpa [IsBlankFree, TextMatch.append] using htext
  · rintro ⟨hcs, rfl⟩
    refine ⟨_, mem_ways_named.2 ⟨_, mem_ways_many.2 ⟨cs, [], ?_, by simp, rfl⟩, rfl⟩, _,
      mem_ways_stop.2 ⟨rfl, rfl⟩, by simp [TextMatch.append]⟩
    simpa [IsBlankFree] using hcs

/-- The expression of wiki links matches what is written as one, in the one way in which it is
    written. -/
theorem mem_ways_wiki :
    m ∈ (expression .wiki).ways s ↔
      ∃ p q, Written .wiki s p q ∧ m = ⟨s, namedParts .wiki p q, []⟩ := by
  constructor
  · intro h
    obtain ⟨_, rfl, m₁, h₁, rfl⟩ := mem_ways_char_seq.1 h
    obtain ⟨_, rfl, m₂, h₂, rfl⟩ := mem_ways_char_seq.1 h₁
    obtain ⟨file, _, hfile, rfl, m₃, h₃, rfl⟩ := mem_ways_named_several_seq.1 h₂
    obtain ⟨path, _, hpath, rfl, m₄, h₄, rfl⟩ := mem_ways_marked_seq.1 h₃
    obtain ⟨caption, _, hcaption, rfl, m₅, h₅, rfl⟩ := mem_ways_marked_seq.1 h₄
    obtain ⟨_, rfl, m₆, h₆, rfl⟩ := mem_ways_char_seq.1 h₅
    obtain ⟨q, rfl, m₇, h₇, rfl⟩ := mem_ways_char_seq.1 h₆
    obtain ⟨hq, rfl⟩ := mem_ways_query.1 h₇
    have hp : IsWiki ⟨file, path, caption⟩ :=
      ⟨isWikiPart_iff.2 hfile, fun cs h => isWikiPart_iff.2 (hpath cs h),
        fun cs h => isWikiPart_iff.2 (hcaption cs h)⟩
    exact ⟨⟨file, path, caption⟩, q, by simpa using Written.wiki hp hq, rfl⟩
  · rintro ⟨p, q, h, rfl⟩
    cases h with
    | wiki hp hq =>
      simp only [List.cons_append, List.append_assoc]
      exact mem_ways_char_seq.2 ⟨_, rfl, _, mem_ways_char_seq.2 ⟨_, rfl, _,
        mem_ways_named_several_seq.2 ⟨_, _, isWikiPart_iff.1 hp.file, rfl, _,
        mem_ways_marked_seq.2 ⟨_, _, fun cs h => isWikiPart_iff.1 (hp.path cs h), rfl, _,
        mem_ways_marked_seq.2 ⟨_, _, fun cs h => isWikiPart_iff.1 (hp.caption cs h), rfl, _,
        mem_ways_char_seq.2 ⟨_, rfl, _, mem_ways_char_seq.2 ⟨_, rfl, _,
        mem_ways_query.2 ⟨hq, rfl⟩, rfl⟩, rfl⟩, rfl⟩, rfl⟩, rfl⟩, rfl⟩, rfl⟩

/-- The expression of markdown links matches what is written as one, in the one way in which it is
    written. -/
theorem mem_ways_markdown :
    m ∈ (expression .markdown).ways s ↔
      ∃ p q, Written .markdown s p q ∧ m = ⟨s, namedParts .markdown p q, []⟩ := by
  constructor
  · intro h
    obtain ⟨_, rfl, m₁, h₁, rfl⟩ := mem_ways_char_seq.1 h
    obtain ⟨caption, _, hcaption, rfl, m₂, h₂, rfl⟩ := mem_ways_caption_seq.1 h₁
    obtain ⟨_, rfl, m₃, h₃, rfl⟩ := mem_ways_char_seq.1 h₂
    obtain ⟨_, rfl, m₄, h₄, rfl⟩ := mem_ways_char_seq.1 h₃
    obtain ⟨file, _, hfile, rfl, m₅, h₅, rfl⟩ := mem_ways_named_several_seq.1 h₄
    obtain ⟨path, _, hpath, rfl, m₆, h₆, rfl⟩ := mem_ways_marked_seq.1 h₅
    obtain ⟨q, rfl, m₇, h₇, rfl⟩ := mem_ways_char_seq.1 h₆
    obtain ⟨hq, rfl⟩ := mem_ways_query.1 h₇
    have hp : IsMarkdown ⟨file, path, caption⟩ :=
      ⟨fun cs h => isCaption_iff.2 (hcaption cs h), isTargetPart_iff.2 hfile,
        fun cs h => isTargetPart_iff.2 (hpath cs h)⟩
    exact ⟨⟨file, path, caption⟩, q, by simpa using Written.markdown hp hq, rfl⟩
  · rintro ⟨p, q, h, rfl⟩
    cases h with
    | markdown hp hq =>
      simp only [List.cons_append, List.append_assoc]
      exact mem_ways_char_seq.2 ⟨_, rfl, _,
        mem_ways_caption_seq.2 ⟨_, _, fun cs h => isCaption_iff.1 (hp.caption cs h), rfl, _,
        mem_ways_char_seq.2 ⟨_, rfl, _, mem_ways_char_seq.2 ⟨_, rfl, _,
        mem_ways_named_several_seq.2 ⟨_, _, isTargetPart_iff.1 hp.file, rfl, _,
        mem_ways_marked_seq.2 ⟨_, _, fun cs h => isTargetPart_iff.1 (hp.path cs h), rfl, _,
        mem_ways_char_seq.2 ⟨_, rfl, _,
        mem_ways_query.2 ⟨hq, rfl⟩, rfl⟩, rfl⟩, rfl⟩, rfl⟩, rfl⟩, rfl⟩, rfl⟩

/-! ### The first way to match -/

/-- A marked part is matched just as it is read. -/
theorem first?_markedExpression :
    (markedExpression mark name ok).first? cs =
      some ⟨marked mark (readMarked mark ok cs).1, namedPart name (readMarked mark ok cs).1,
        (readMarked mark ok cs).2⟩ := by
  rw [markedExpression, first?_optional, first?_char_seq]
  cases cs with
  | nil => rfl
  | cons c cs =>
    by_cases hc : c = mark
    · subst hc
      by_cases hread : cs.takeWhile ok = []
      · rw [readMarked_of_takeWhile_eq_nil hread]
        simp only [if_true, first?_named, first?_several, hread]
        rfl
      · rw [readMarked_self hread]
        simp only [if_true, first?_named, first?_several, if_neg hread]
        rfl
    · rw [readMarked_of_ne hc]
      simp only [if_neg hc]
      rfl

/-- The text of an inner link is written as it is matched. -/
theorem innerText_eq (p : LinkParts) :
    p.innerText = p.file ++ marked '#' p.path ++ marked '|' p.caption := by
  obtain ⟨file, path, caption⟩ := p
  cases path <;> cases caption <;> rfl

/-- Of an inner link as much is matched as is read. -/
theorem first?_inner :
    (expression .inner).first? cs =
      (readWiki? cs).map fun r => ⟨r.1.innerText, namedParts .inner r.1 [], r.2⟩ := by
  rw [expression, readWiki?]
  split
  · next hfile =>
    rw [first?_seq_of_eq_none (by rw [first?_named, first?_several, if_pos hfile]; rfl)]
    rfl
  · next hfile =>
    rw [first?_seq (by rw [first?_named, first?_several, if_neg hfile]; rfl)
      (first?_seq first?_markedExpression first?_markedExpression)]
    simp [innerText_eq, namedParts, TextMatch.append]

/-! ### Searching -/

/-- A form in which every text has at most one way to be matched, and is then the whole of it, is
    searched by reading every end of the text. -/
theorem searched?_eq_longestEnd? {read : List Char → Option (LinkParts × List Char)} {text : String}
    (hread : ∀ {s p q}, read s = some (p, q) ↔ Written kind s p q)
    (hways : ∀ {s m}, m ∈ (expression kind).ways s ↔
      ∃ p q, Written kind s p q ∧ m = ⟨s, namedParts kind p q, []⟩) :
    searched? kind text =
      (longestEnd? read text.toList).map fun r => r.2.1.toLink kind r.1 r.2.2 := by
  have hfirst : ∀ s, (expression kind).first? s =
      (read s).map fun r => ⟨s, namedParts kind r.1 r.2, []⟩ := by
    intro s
    cases hs : read s with
    | none =>
      rw [first?, Option.map_none, List.head?_eq_none_iff, List.eq_nil_iff_forall_not_mem]
      intro m hm
      obtain ⟨p, q, h, _⟩ := hways.1 hm
      exact absurd ((hread.2 h).symm.trans hs) (Option.some_ne_none _)
    | some r =>
      -- There is a way, and every way is this one.
      have h := hread.1 hs
      obtain ⟨m, ms, hms⟩ :=
        List.exists_cons_of_ne_nil (List.ne_nil_of_mem (hways.2 ⟨r.1, r.2, h, rfl⟩))
      obtain ⟨p, q, h', rfl⟩ := hways.1 (hms ▸ List.mem_cons_self)
      obtain ⟨rfl, rfl⟩ := h.unique h'
      rw [first?, hms]
      rfl
  have hsearch : ∀ cs, (expression kind).search? cs =
      (longestEnd? read cs).map fun r => ⟨r.1, namedParts kind r.2.1 r.2.2, []⟩ := by
    intro cs
    induction cs with
    | nil =>
      rw [search?, hfirst, longestEnd?]
      cases read [] <;> rfl
    | cons c cs ih =>
      rw [search?, hfirst, longestEnd?, ih]
      cases read (c :: cs) <;> rfl
  rw [searched?, hsearch]
  cases hend : longestEnd? read text.toList with
  | none => rfl
  | some r =>
    exact linkOf?_namedParts (hread.1 (longestEnd?_eq_some_iff.1 hend).2.1)

/-- The first place that has an inner link is the first character that can be part of one. -/
theorem search?_inner :
    (expression .inner).search? cs =
      (readWiki? (cs.dropWhile fun c => !isWikiChar c)).map fun r =>
        ⟨r.1.innerText, namedParts .inner r.1 [], r.2⟩ := by
  induction cs with
  | nil => rw [search?, first?_inner]; rfl
  | cons c cs ih =>
    rw [search?, first?_inner]
    by_cases hc : isWikiChar c
    · rw [List.dropWhile_cons_of_neg (by simp [hc])]
      cases hread : readWiki? (c :: cs) with
      | none =>
        rw [readWiki?_eq_none_iff, List.takeWhile_cons_of_pos hc] at hread
        cases hread
      | some r => rfl
    · rw [List.dropWhile_cons_of_pos (by simp [hc]), ← ih,
        readWiki?_eq_none_iff.2 (List.takeWhile_cons_of_neg hc)]
      rfl

/-! ### Ends of a text -/

/-- Whether an end of a text is a link of a form. -/
def HasEnd (kind : LinkKind) (cs : List Char) : Prop := ∃ s p q, s <:+ cs ∧ Written kind s p q

/-- The longest end of a text that is a link of a form. -/
structure IsLongestEnd (kind : LinkKind) (cs s : List Char) (p : LinkParts) (q : List Char) :
    Prop where
  /-- It is an end of the text. -/
  isSuffix : s <:+ cs
  /-- It is written from the parts. -/
  written : Written kind s p q
  /-- No longer end is a link of the form. -/
  longest : ∀ {s' p' q'}, s' <:+ cs → Written kind s' p' q' → s'.length ≤ s.length

/-- A whole text that is a link is the longest end of itself that is one. -/
theorem Written.isLongestEnd (h : Written kind s p q) : IsLongestEnd kind s s p q :=
  ⟨List.suffix_rfl, h, fun hs _ => hs.length_le⟩

section Ends

variable {read : List Char → Option (LinkParts × List Char)}

/-- A reader of one form finds nothing at the end of a text exactly if no end of the text is of that
    form. -/
theorem longestEnd?_eq_none_iff_not_hasEnd
    (hread : ∀ {s p q}, read s = some (p, q) ↔ Written kind s p q) :
    longestEnd? read cs = none ↔ ¬ HasEnd kind cs := by
  rw [longestEnd?_eq_none_iff, HasEnd]
  constructor
  · rintro h ⟨s, p, q, hs, hw⟩
    exact absurd ((h s hs).symm.trans (hread.2 hw)) nofun
  · intro h s hs
    rw [Option.eq_none_iff_forall_ne_some]
    exact fun r hr => h ⟨s, r.1, r.2, hs, hread.1 hr⟩

/-- A reader of one form finds the longest end of a text that is of that form. -/
theorem longestEnd?_eq_some_iff_isLongestEnd
    (hread : ∀ {s p q}, read s = some (p, q) ↔ Written kind s p q) :
    longestEnd? read cs = some (s, p, q) ↔ IsLongestEnd kind cs s p q := by
  rw [longestEnd?_eq_some_iff, hread]
  constructor
  · rintro ⟨hs, hw, hmax⟩
    refine ⟨hs, hw, fun {s' p' q'} hs' hw' => Nat.not_lt.1 fun hlt => ?_⟩
    exact absurd ((hmax s' hs' hlt).symm.trans (hread.2 hw')) nofun
  · rintro ⟨hs, hw, hmax⟩
    refine ⟨hs, hw, fun s' hs' hlt => ?_⟩
    rw [Option.eq_none_iff_forall_ne_some]
    exact fun r hr => absurd (hmax hs' (hread.1 hr)) (Nat.not_le.2 hlt)

end Ends

end LinkParts

namespace CodeLink

open LinkParts

variable {text : String} {l : CodeLink}

/-- The link at the end of a text is the first match of the wiki form, and if there is none that
    of the markdown form. -/
theorem parse?_eq_searched? (text : String) :
    parse? text = (searched? .wiki text).or (searched? .markdown text) := by
  rw [searched?_eq_longestEnd? wiki?_eq_some_iff mem_ways_wiki,
    searched?_eq_longestEnd? markdown?_eq_some_iff mem_ways_markdown, parse?]
  cases longestEnd? wiki? text.toList with
  | some => rfl
  | none => cases longestEnd? markdown? text.toList <;> rfl

/-- Inner links are read as a search for their expression finds them. -/
theorem parseInner?_eq_searched? (text : String) : parseInner? text = searched? .inner text := by
  rw [parseInner?, searched?, search?_inner]
  cases hread : readWiki? (text.toList.dropWhile fun c => !isWikiChar c) with
  | none => rfl
  | some r =>
    obtain ⟨hp, _⟩ := isWiki_of_readWiki? hread
    exact (linkOf?_namedParts (innerText_eq r.1 ▸ Written.inner hp)).symm

/-- A wiki link at the end of a text is found before any markdown link, however long that is. -/
theorem parse?_eq_some_iff :
    parse? text = some l ↔
      (∃ s p q, IsLongestEnd .wiki text.toList s p q ∧ l = p.toLink .wiki s q) ∨
      ¬ HasEnd .wiki text.toList ∧
        ∃ s p q, IsLongestEnd .markdown text.toList s p q ∧ l = p.toLink .markdown s q := by
  simp only [← longestEnd?_eq_none_iff_not_hasEnd wiki?_eq_some_iff,
    ← longestEnd?_eq_some_iff_isLongestEnd wiki?_eq_some_iff,
    ← longestEnd?_eq_some_iff_isLongestEnd markdown?_eq_some_iff, parse?]
  cases longestEnd? wiki? text.toList with
  | some r => simp [eq_comm, Prod.ext_iff]
  | none =>
    cases longestEnd? markdown? text.toList with
    | some r => simp [eq_comm, Prod.ext_iff]
    | none => simp

/-- The link at the end of a text, by its own form and text. -/
theorem parse?_eq_some_iff_isLongestEnd :
    parse? text = some l ↔
      (∃ p q, IsLongestEnd l.kind text.toList l.text.toList p q ∧
        l = p.toLink l.kind l.text.toList q) ∧
      (l.kind = .wiki ∨ l.kind = .markdown ∧ ¬ HasEnd .wiki text.toList) := by
  rw [parse?_eq_some_iff]
  constructor
  · rintro (⟨s, p, q, hend, rfl⟩ | ⟨hnone, s, p, q, hend, rfl⟩)
    · exact ⟨⟨p, q, by simpa [toLink] using hend, by simp [toLink]⟩, .inl rfl⟩
    · exact ⟨⟨p, q, by simpa [toLink] using hend, by simp [toLink]⟩, .inr ⟨rfl, hnone⟩⟩
  · rintro ⟨⟨p, q, hend, hl⟩, hkind | ⟨hkind, hnone⟩⟩
    · rw [hkind] at hend hl
      exact .inl ⟨_, p, q, hend, hl⟩
    · rw [hkind] at hend hl
      exact .inr ⟨hnone, _, p, q, hend, hl⟩

/-- Which forms end a text that a link is found in. -/
theorem hasEnd_of_parse? (h : parse? text = some l) :
    l.kind = .wiki ∧ HasEnd .wiki text.toList ∨
      l.kind = .markdown ∧ ¬ HasEnd .wiki text.toList ∧ HasEnd .markdown text.toList := by
  obtain ⟨⟨p, q, hend, _⟩, hkind | ⟨hkind, hnone⟩⟩ := parse?_eq_some_iff_isLongestEnd.1 h
  · exact .inl ⟨hkind, _, p, q, hend.isSuffix, hkind ▸ hend.written⟩
  · exact .inr ⟨hkind, hnone, _, p, q, hend.isSuffix, hkind ▸ hend.written⟩

/-- Nothing is found exactly if the text ends with no link of either form. -/
theorem parse?_eq_none_iff :
    parse? text = none ↔ ¬ HasEnd .wiki text.toList ∧ ¬ HasEnd .markdown text.toList := by
  rw [← longestEnd?_eq_none_iff_not_hasEnd wiki?_eq_some_iff,
    ← longestEnd?_eq_none_iff_not_hasEnd markdown?_eq_some_iff, parse?]
  cases longestEnd? wiki? text.toList with
  | some => simp
  | none => cases longestEnd? markdown? text.toList <;> simp

/-- Where a text ends with a link, some link is found. -/
theorem exists_parse?_of_hasEnd
    (h : HasEnd .wiki text.toList ∨ HasEnd .markdown text.toList) : ∃ l, parse? text = some l := by
  rw [← Option.ne_none_iff_exists', Ne, parse?_eq_none_iff, ← not_or, not_not]
  exact h

/-- What the grammar says of the link that is found at the end of a text. -/
structure IsGrammatical (text : String) (found : Option CodeLink) : Prop where
  /-- A wiki link is found if the text ends with one. -/
  wiki : (∃ l, found = some l ∧ l.kind = .wiki) ↔ HasEnd .wiki text.toList
  /-- A markdown link is found if the text ends with one and with no wiki link. -/
  markdown : (∃ l, found = some l ∧ l.kind = .markdown) ↔
    ¬ HasEnd .wiki text.toList ∧ HasEnd .markdown text.toList
  /-- Nothing is found if it ends with neither. -/
  absent : found = none ↔ ¬ HasEnd .wiki text.toList ∧ ¬ HasEnd .markdown text.toList
  /-- The link is the longest end of its form, which is written from its parts only. -/
  parts : ∀ l, found = some l → ∃ s p q, IsLongestEnd l.kind text.toList s p q ∧
    (∀ p' q', Written l.kind s p' q' → p' = p ∧ q' = q) ∧
    l.text = String.ofList s ∧ l.file = String.ofList p.file ∧
    l.path = p.path.map (fun path => TagPath.parse (String.ofList path)) ∧
    l.caption = p.caption.map String.ofList ∧
    l.query = if q = [] then none else some (String.ofList q)

/-- The link at the end of a text is what the search for the two forms finds, and that is the
    longest end of the text that is a link. -/
theorem isGrammatical_parse? (text : String) :
    parse? text = (searched? .wiki text).or (searched? .markdown text) ∧
      IsGrammatical text (parse? text) := by
  refine ⟨parse?_eq_searched? text, ?_, ?_, parse?_eq_none_iff, ?_⟩
  · constructor
    · rintro ⟨l, hl, hkind⟩
      rcases hasEnd_of_parse? hl with ⟨_, hend⟩ | ⟨hkind', _⟩
      · exact hend
      · exact absurd (hkind.symm.trans hkind') nofun
    · intro hend
      obtain ⟨l, hl⟩ := exists_parse?_of_hasEnd (.inl hend)
      rcases hasEnd_of_parse? hl with ⟨hkind, _⟩ | ⟨_, hnone, _⟩
      · exact ⟨l, hl, hkind⟩
      · exact absurd hend hnone
  · constructor
    · rintro ⟨l, hl, hkind⟩
      rcases hasEnd_of_parse? hl with ⟨hkind', _⟩ | ⟨_, hends⟩
      · exact absurd (hkind.symm.trans hkind') nofun
      · exact hends
    · rintro ⟨hnone, hend⟩
      obtain ⟨l, hl⟩ := exists_parse?_of_hasEnd (.inr hend)
      rcases hasEnd_of_parse? hl with ⟨_, hwiki⟩ | ⟨hkind, _⟩
      · exact absurd hwiki hnone
      · exact ⟨l, hl, hkind⟩
  · intro l hl
    obtain ⟨⟨p, q, hend, hparts⟩, _⟩ := parse?_eq_some_iff_isLongestEnd.1 hl
    have hfields := congrArg (fun l : CodeLink => (l.file, l.path, l.caption, l.query)) hparts
    simp only [toLink, Prod.mk.injEq] at hfields
    exact ⟨_, p, q, hend, fun _ _ => hend.written.unique, String.ofList_toList.symm, hfields⟩

end CodeLink

end SymbolPaths
