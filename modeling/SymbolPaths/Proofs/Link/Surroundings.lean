import SymbolPaths.Proofs.Link.Reading

/-!
# What stands around a link

Between the brackets of a wiki link stands an inner link. But an inner link may end anywhere: what
cannot be part of it is passed over before it and left behind it. So `parseInner?` finds a link in
texts that make no wiki link, and agrees with `parse?` where nothing is passed over and what is
left behind, together with the brackets, is brackets with a query.

Before a link at the end of a text may stand anything that does not become part of it: a longer
end of the text that is a link counts instead. It begins with a link that is not over yet, which
may be one whose query goes on.

* `parse?_between_brackets`: what is read of a text between brackets;
* `isUnfinished_of_wiki`, `isUnfinished_of_markdown`: how a longer link begins;
* `parse?_append_iff`: when a link is found whatever stands before it.

A longer end that is a link begins in what stands before the link and takes the whole of the link
into one of its own parts. What it has before the link is the beginning of a link that nothing has
closed (`IsUnfinished`). Such a beginning need not become a link with every link behind it, but
there is one with which it does (`CodeLink.shortest`), and so the condition on what may stand
before a link is exact where it is asked of all links.
-/

namespace SymbolPaths

open LinkParts

variable {kind : LinkKind} {s rest q u v w : List Char} {p : LinkParts} {text : String}
  {l : CodeLink}

/-- An end of two texts is one of the second, or goes on into the first. -/
theorem suffix_append_cases (h : s <:+ u ++ w) :
    s <:+ w ∨ ∃ v, v ≠ [] ∧ v <:+ u ∧ s = v ++ w := by
  obtain ⟨t, ht⟩ := h
  rcases List.append_eq_append_iff.1 ht with ⟨v, rfl, rfl⟩ | ⟨v, _, rfl⟩
  · by_cases hv : v = []
    · exact .inl (by simp [hv])
    · exact .inr ⟨v, hv, List.suffix_append _ _, rfl⟩
  · exact .inl (List.suffix_append _ _)

/-! ### Inner links -/

namespace CodeLink

/-- Nothing is found in a text without a character that can be part of a link. -/
theorem parseInner?_eq_none_iff :
    parseInner? text = none ↔ ∀ c ∈ text.toList, isWikiChar c = false := by
  have hnone : readWiki? (text.toList.dropWhile fun c => !isWikiChar c) = none ↔
      ∀ c ∈ text.toList, isWikiChar c = false := by
    have hhead := List.head?_dropWhile_not (fun c => !isWikiChar c) text.toList
    simp only [readWiki?_eq_none_iff, ← Bool.not_eq_true', ← List.dropWhile_eq_nil_iff]
    cases hdrop : text.toList.dropWhile fun c => !isWikiChar c with
    | nil => simp
    | cons c cs => simpa [hdrop, List.takeWhile_cons] using hhead
  rw [parseInner?, ← hnone]
  cases readWiki? (text.toList.dropWhile fun c => !isWikiChar c) <;> simp

/-- What is found is an inner link. -/
theorem written_of_parseInner? (h : parseInner? text = some l) :
    ∃ p, Written .inner l.text.toList p [] ∧ l = p.toLink .inner l.text.toList [] := by
  rw [parseInner?] at h
  split at h
  · next p rest hread =>
    obtain rfl := Option.some.inj h
    refine ⟨p, ?_, by simp [toLink]⟩
    rw [toLink, String.toList_ofList, innerText_eq]
    exact .inner (isWiki_of_readWiki? hread).1
  · cases h

/-- An inner link is found if a bracket or nothing is behind it. -/
theorem parseInner?_written (h : Written .inner s p q) (hrest : ∀ c ∈ rest.head?, c = ']')
    (htext : text.toList = s ++ rest) : parseInner? text = some (p.toLink .inner s []) := by
  cases h with
  | inner hp =>
    have hread := readWiki?_written hp hrest
    rw [List.append_assoc, List.append_assoc] at htext
    rw [parseInner?, htext, hp.file.dropWhile_append, ← List.append_assoc, ← List.append_assoc,
      hread, ← innerText_eq]

end CodeLink

/-! ### Between brackets -/

namespace LinkParts

/-- There are three characters in a wiki link that could be part of one. -/
theorem Written.three_le_countP (h : Written .wiki s p q) : 3 ≤ s.countP isWikiChar := by
  cases h with
  | wiki hp =>
    obtain ⟨hne, hfile⟩ := isWikiPart_iff.1 hp.file
    have hpos := List.length_pos_of_ne_nil hne
    have hbracket : isWikiChar '[' := by decide
    simp only [List.cons_append, List.countP_cons_of_pos hbracket, List.countP_append,
      List.countP_eq_length.2 hfile]
    omega

/-- No bracket is closed in an inner link. -/
theorem Written.notMem_inner (h : Written .inner s p q) : ']' ∉ s := by
  cases h with
  | inner hp =>
    have hpath := notMem_marked (by decide : ']' ≠ '#') fun cs h => (hp.path cs h).2.2.2
    have hcaption := notMem_marked (by decide : ']' ≠ '|') fun cs h => (hp.caption cs h).2.2.2
    simp [hp.file.2.2.2, hpath, hcaption]

/-- Two brackets around a text make it a wiki link, if the text with brackets behind it is one
    without the brackets before it. -/
theorem written_wiki_iff : Written .wiki ('[' :: '[' :: s) p q ↔
    IsBlankFree q ∧ ∃ cs, Written .inner cs p [] ∧ s = cs ++ ']' :: ']' :: q := by
  constructor
  · intro h
    generalize hs : '[' :: '[' :: s = s' at h
    cases h with
    | wiki hp hq =>
      simp only [List.cons_append, List.cons.injEq, true_and] at hs
      exact ⟨hq, _, .inner hp, hs⟩
  · rintro ⟨hq, cs, h, rfl⟩
    cases h with
    | inner hp => exact .wiki hp hq

end LinkParts

namespace CodeLink

/-- A text between the brackets of a wiki link. -/
def bracketed (text : String) : String := "[[" ++ text ++ "]]"

theorem toList_bracketed (text : String) :
    (bracketed text).toList = '[' :: '[' :: (text.toList ++ [']', ']']) := by
  simp [bracketed]

theorem parse?_bracketed_eq_none (h : parseInner? text = none) :
    parse? (bracketed text) = none := by
  rw [parseInner?_eq_none_iff] at h
  rw [parse?_eq_none_iff, toList_bracketed]
  constructor
  · rintro ⟨s, p, q, hs, hw⟩
    -- Of the characters that could be part of a link there are only the two brackets.
    have htext : text.toList.countP isWikiChar = 0 := by
      rw [List.countP_eq_zero]
      exact fun c hc => by simp [h c hc]
    have hcount : ('[' :: '[' :: (text.toList ++ [']', ']'])).countP isWikiChar = 2 := by
      rw [List.countP_cons_of_pos (by decide), List.countP_cons_of_pos (by decide),
        List.countP_append, htext]
      decide
    have := hs.sublist.countP_le (p := isWikiChar)
    have := hw.three_le_countP
    omega
  · rintro ⟨s, p, q, hs, hw⟩
    have hmem : '(' ∈ s := by
      cases hw
      simp
    have hopen : '(' ∈ text.toList := by simpa using hs.subset hmem
    exact absurd (h _ hopen) (by decide)

/-- A text makes a wiki link between brackets if it is an inner link up to its end, or up to
    brackets and a query. -/
theorem parse?_bracketed_eq_some_iff :
    (parse? (bracketed text) = some l ∧ l.kind = .wiki ∧ l.text = bracketed text) ↔
      ∃ l' q, parseInner? text = some l' ∧ text ++ "]]" = l'.text ++ "]]" ++ q ∧
        IsBlankFree q.toList ∧
        l = { l' with
          kind := .wiki
          text := bracketed text
          query := if q = "" then none else some q } := by
  constructor
  · rintro ⟨hl, hkind, htext⟩
    rcases parse?_eq_some_iff.1 hl with ⟨s, p, q, hend, rfl⟩ | ⟨_, s, p, q, _, rfl⟩
    · obtain rfl : s = (bracketed text).toList := by
        rw [← htext, toLink, String.toList_ofList]
      have hw := hend.written
      rw [toList_bracketed, written_wiki_iff] at hw
      obtain ⟨hq, cs, hinner, hcs⟩ := hw
      -- The query is as long as what the inner link leaves of the text.
      have hlength := congrArg List.length hcs
      simp only [List.length_append, List.length_cons, List.length_nil] at hlength
      obtain ⟨rest, hrest⟩ : cs <+: text.toList :=
        List.prefix_of_prefix_length_le ⟨_, hcs.symm⟩ (List.prefix_append _ _) (by omega)
      have hhead : ∀ c ∈ rest.head?, c = ']' := by
        rw [← hrest, List.append_assoc, List.append_cancel_left_eq] at hcs
        cases rest with
        | nil => simp
        | cons c rest =>
          rintro c ⟨⟩
          exact (List.cons.inj hcs).1
      refine ⟨_, String.ofList q, parseInner?_written hinner hhead hrest.symm, ?_, ?_, ?_⟩
      · rw [← String.toList_inj]
        simpa [toLink] using hcs
      · rwa [String.toList_ofList]
      · simp [toLink]
    · cases hkind
  · rintro ⟨l', q, hl', htext, hq, rfl⟩
    obtain ⟨p, hinner, hl'⟩ := written_of_parseInner? hl'
    have hlist := congrArg String.toList htext
    have hw : Written .wiki (bracketed text).toList p q.toList := by
      rw [toList_bracketed, written_wiki_iff]
      exact ⟨hq, _, hinner, by simpa using hlist⟩
    refine ⟨parse?_eq_some_iff.2 (.inl ⟨_, p, _, hw.isLongestEnd, ?_⟩), rfl, rfl⟩
    rw [hl']
    simp [toLink]

/-- Without brackets of its own, a text makes no link with only an end of it. -/
theorem text_eq_of_parse?_bracketed (hopen : '[' ∉ text.toList) (hclose : ']' ∉ text.toList)
    (h : parse? (bracketed text) = some l) : l.kind = .wiki ∧ l.text = bracketed text := by
  rcases parse?_eq_some_iff.1 h with ⟨s, p, q, hend, rfl⟩ | ⟨_, s, p, q, hend, rfl⟩
  · obtain ⟨hs, hw, _⟩ := hend
    obtain ⟨cs, rfl⟩ : ∃ cs, s = '[' :: '[' :: cs := by
      cases hw
      exact ⟨_, rfl⟩
    have hnot : '[' ∉ text.toList ++ [']', ']'] := by simpa using hopen
    rw [toList_bracketed, List.suffix_cons_iff, List.suffix_cons_iff] at hs
    rcases hs with hs | hs | hs
    · refine ⟨rfl, ?_⟩
      rw [toLink, hs, ← toList_bracketed, String.ofList_toList]
    · exact absurd ((List.cons.inj hs).2 ▸ List.mem_cons_self) hnot
    · exact absurd (hs.subset List.mem_cons_self) hnot
  · obtain ⟨hs, hw, _⟩ := hend
    -- The brackets at the end are the only ones that are closed, and no target is behind them.
    obtain ⟨cs, d, rfl⟩ : ∃ cs d, s = cs ++ ']' :: '(' :: d := by
      cases hw
      exact ⟨_, _, by simp only [List.append_assoc]; rfl⟩
    have hnot : ']' ∉ '[' :: '[' :: text.toList := by simpa using hclose
    have hd := (List.suffix_append cs _).trans hs
    rw [toList_bracketed, ← List.cons_append, ← List.cons_append] at hd
    rcases suffix_append_cases hd with hd | ⟨v, hv, hvu, hd⟩
    · simp [List.suffix_cons_iff] at hd
    · obtain ⟨c, v, rfl⟩ := List.exists_cons_of_ne_nil hv
      obtain rfl := (List.cons.inj hd).1
      exact absurd (hvu.subset List.mem_cons_self) hnot

/-- What the text of a wiki link says of what is between its brackets: nothing is found there just
    as nothing is found in the text; where the text is an inner link up to its end, or up to
    brackets and a query, the two links have their parts in common. -/
theorem parse?_between_brackets (text : String) :
    (parseInner? text = none → parse? (bracketed text) = none) ∧
    (∀ l, (parse? (bracketed text) = some l ∧ l.kind = .wiki ∧ l.text = bracketed text) ↔
      ∃ l' q, parseInner? text = some l' ∧ text ++ "]]" = l'.text ++ "]]" ++ q ∧
        IsBlankFree q.toList ∧
        l = { l' with
          kind := .wiki
          text := bracketed text
          query := if q = "" then none else some q }) ∧
    ('[' ∉ text.toList → ']' ∉ text.toList →
      ((parse? (bracketed text)).isSome ↔ ∃ l', parseInner? text = some l' ∧ l'.text = text)) := by
  refine ⟨parse?_bracketed_eq_none, fun l => parse?_bracketed_eq_some_iff,
    fun hopen hclose => ?_⟩
  rw [Option.isSome_iff_exists]
  constructor
  · rintro ⟨l, hl⟩
    obtain ⟨l', q, hl', htext, _⟩ := parse?_bracketed_eq_some_iff.1
      ⟨hl, text_eq_of_parse?_bracketed hopen hclose hl⟩
    refine ⟨l', hl', ?_⟩
    -- Both the text and the inner link end where the first bracket is closed.
    obtain ⟨p, hinner, _⟩ := written_of_parseInner? hl'
    have hend : ∀ {cs rest : List Char}, ']' ∉ cs →
        (cs ++ ']' :: rest).takeWhile isCaptionChar = cs := fun {cs rest} hcs =>
      takeWhile_append_of_head
        (fun c hc => bne_iff_ne.2 (ne_of_mem_of_not_mem hc hcs)) (by rintro _ ⟨⟩; rfl)
    have hlist : text.toList ++ ']' :: [']'] = l'.text.toList ++ ']' :: ']' :: q.toList := by
      simpa using congrArg String.toList htext
    rw [← String.toList_inj, ← hend hinner.notMem_inner, ← hlist, hend hclose]
  · rintro ⟨l', hl', htext⟩
    have hwhole := parse?_bracketed_eq_some_iff.2
      ⟨l', "", hl', by rw [htext, String.append_empty], by simp [IsBlankFree], rfl⟩
    exact ⟨_, hwhole.1⟩

/-- A text with brackets of its own between brackets: the first link in it is found without them,
    and the last one with them. -/
theorem parse?_bracketed_last :
    let l : CodeLink := ⟨.inner, "a.py", "a.py", none, none, none⟩
    let l' : CodeLink := ⟨.wiki, "[[b.py]]", "b.py", none, none, none⟩
    parseInner? "a.py]] [[b.py" = some l ∧
      parse? (bracketed "a.py]] [[b.py") = some l' ∧ l.file ≠ l'.file := by
  decide

end CodeLink

/-! ### Before a link -/

/-- The shortest link. -/
def CodeLink.shortest : CodeLink :=
  { kind := .markdown, text := "[](x)", file := "x", path := none, caption := none, query := none }

namespace LinkParts

/-- A text that a link may begin with and go on after it: with a bracket that nothing closes, with
    the file or the path that a markdown link leads to, or with a query. -/
inductive IsUnfinished : List Char → Prop
  /-- A bracket that is not closed. -/
  | bracket {cs : List Char} (hcs : ']' ∉ cs) : IsUnfinished ('[' :: cs)
  /-- A link that breaks off in its file, or before it. -/
  | file {caption file : List Char} (hcaption : ']' ∉ caption)
    (hfile : file = [] ∨ IsTargetPart file) : IsUnfinished ('[' :: caption ++ ']' :: '(' :: file)
  /-- A link that breaks off in its path, or before it. -/
  | path {caption file path : List Char} (hcaption : ']' ∉ caption) (hfile : IsTargetPart file)
    (hpath : path = [] ∨ IsTargetPart path) :
    IsUnfinished ('[' :: caption ++ ']' :: '(' :: file ++ '#' :: path)
  /-- A whole link, whose query may go on. -/
  | query {kind : LinkKind} {s q : List Char} {p : LinkParts} (hkind : kind ≠ .inner)
    (h : Written kind s p q) : IsUnfinished s

theorem IsTargetPart.of_append (h : IsTargetPart (u ++ v)) : u = [] ∨ IsTargetPart u := by
  by_cases hu : u = []
  · exact .inl hu
  · have hnot : ∀ c, c ∉ u ++ v → c ∉ u := fun c hc hmem => hc (List.mem_append_left v hmem)
    exact .inr ⟨hu, hnot _ h.2.1, hnot _ h.2.2.1, hnot _ h.2.2.2⟩

theorem IsTargetPart.append (hv : IsTargetPart v) (hu : u = [] ∨ IsTargetPart u) :
    IsTargetPart (u ++ v) := by
  rcases hu with rfl | hu
  · exact hv
  · exact ⟨by simp [hv.1], by simp [hu.2.1, hv.2.1], by simp [hu.2.2.1, hv.2.2.1],
      by simp [hu.2.2.2, hv.2.2.2]⟩

/-- A query can go on. -/
theorem Written.append (h : Written kind s p q) (hkind : kind ≠ .inner) (hw : IsBlankFree w) :
    Written kind (s ++ w) p (q ++ w) := by
  have happend : ∀ {q}, IsBlankFree q → IsBlankFree (q ++ w) := fun hq =>
    List.forall_mem_append.2 ⟨hq, hw⟩
  cases h with
  | wiki hp hq => simpa using Written.wiki hp (happend hq)
  | markdown hp hq => simpa using Written.markdown hp (happend hq)
  | inner => exact absurd rfl hkind

/-- What a wiki link begins with before a bracket. -/
theorem isUnfinished_of_wiki (hv : v ≠ []) (h : Written .wiki (v ++ '[' :: w) p q) :
    IsUnfinished v := by
  generalize hs : v ++ '[' :: w = s at h
  cases h with
  | wiki hp hq =>
    rcases List.append_eq_append_iff.1 hs with ⟨v', hinner, _⟩ | ⟨v', rfl, hrest⟩
    · -- It ends between the brackets, where none is closed.
      have hnot : ']' ∉ '[' :: '[' :: p.file ++ marked '#' p.path ++ marked '|' p.caption := by
        simpa using (Written.inner hp).notMem_inner
      obtain ⟨c, cs, rfl⟩ := List.exists_cons_of_ne_nil hv
      rw [hinner] at hnot
      obtain rfl : '[' = c := (List.cons.inj hinner).1
      exact .bracket fun hmem => hnot (by simp [hmem])
    · match v', hrest with
      | a :: b :: q', hrest =>
        simp only [List.cons_append, List.cons.injEq] at hrest
        obtain ⟨rfl, rfl, rfl⟩ := hrest
        -- The brackets are closed, so it ends in the query.
        exact .query (by decide) (.wiki hp (List.forall_mem_append.1 hq).1)

theorem marked_eq_cons {mark c : Char} {part : Option (List Char)}
    (h : marked mark part = c :: s) : c = mark ∧ part = some s := by
  cases part with
  | none => cases h
  | some cs =>
    obtain ⟨rfl, rfl⟩ := List.cons.inj h
    exact ⟨rfl, rfl⟩

/-- What a markdown link begins with before a bracket behind its caption. -/
theorem isUnfinished_of_target (hp : p.IsMarkdown) (hq : IsBlankFree q)
    (h : v ++ '[' :: w = p.file ++ (marked '#' p.path ++ ')' :: q)) :
    IsUnfinished ('[' :: p.caption.getD [] ++ ']' :: '(' :: v) := by
  have hcaption : ']' ∉ p.caption.getD [] := notMem_getD fun cs h => (hp.caption cs h).2
  rcases List.append_eq_append_iff.1 h with ⟨v', hfile, _⟩ | ⟨v', rfl, hmarked⟩
  · -- It ends in the file.
    exact .file hcaption (hfile ▸ hp.file).of_append
  rcases List.append_eq_append_iff.1 hmarked.symm with ⟨d, hpath, _⟩ | ⟨d, rfl, hclose⟩
  · -- It ends in the path, or before the mark of it.
    cases v' with
    | nil => exact .file hcaption (.inr (by simpa using hp.file))
    | cons c path =>
      obtain ⟨rfl, hsome⟩ := marked_eq_cons hpath
      simpa using IsUnfinished.path hcaption hp.file (hp.path _ hsome).of_append
  · match d, hclose with
    | c :: q', hclose =>
      simp only [List.cons_append, List.cons.injEq] at hclose
      obtain ⟨rfl, rfl⟩ := hclose
      -- All of the link is there, and the bracket is one of the query.
      have hw := Written.markdown hp (List.forall_mem_append.1 hq).1
      exact .query (by decide : LinkKind.markdown ≠ .inner) (by simpa using hw)

/-- What a markdown link begins with before a bracket. -/
theorem isUnfinished_of_markdown (hv : v ≠ []) (h : Written .markdown (v ++ '[' :: w) p q) :
    IsUnfinished v := by
  generalize hs : v ++ '[' :: w = s at h
  cases h with
  | markdown hp hq =>
    simp only [List.append_assoc] at hs
    rcases List.append_eq_append_iff.1 hs with ⟨v', hcaption, _⟩ | ⟨v', rfl, hrest⟩
    · have hnot : ']' ∉ p.caption.getD [] := notMem_getD fun cs h => (hp.caption cs h).2
      obtain ⟨c, cs, rfl⟩ := List.exists_cons_of_ne_nil hv
      obtain ⟨rfl, hcs⟩ := List.cons.inj hcaption
      rw [hcs] at hnot
      exact .bracket fun hmem => hnot (List.mem_append_left v' hmem)
    · match v', hrest with
      | a :: b :: t, hrest =>
        simp only [List.cons_append, List.cons.injEq] at hrest
        obtain ⟨rfl, rfl, hrest⟩ := hrest
        exact isUnfinished_of_target hp hq hrest.symm

/-- A link that can stand before a query begins with a bracket. -/
theorem Written.exists_eq_cons (h : Written kind s p q) (hkind : kind ≠ .inner) :
    ∃ cs, s = '[' :: cs := by
  cases h with
  | wiki | markdown => exact ⟨_, rfl⟩
  | inner => exact absurd rfl hkind

theorem IsUnfinished.ne_nil (h : IsUnfinished v) : v ≠ [] := by
  cases h with
  | query hkind h =>
    obtain ⟨cs, rfl⟩ := h.exists_eq_cons hkind
    exact List.cons_ne_nil _ _
  | _ => simp

/-- The shortest link makes a longer one of all that is unfinished before it. -/
theorem IsUnfinished.exists_written (h : IsUnfinished v) :
    ∃ kind p q, kind ≠ .inner ∧ Written kind (v ++ CodeLink.shortest.text.toList) p q := by
  have htext : CodeLink.shortest.text.toList = ['[', ']', '(', 'x', ')'] := by decide
  have hpart : IsTargetPart ['[', ']', '(', 'x'] := by simp [IsTargetPart]
  have hcaption : ∀ {cs : List Char}, ']' ∉ cs →
      ∀ caption ∈ (if cs = [] then none else some cs), IsCaption caption := by
    intro cs hcs caption hmem
    obtain ⟨hne, ⟨⟩⟩ := Option.mem_ite_none_left.1 hmem
    exact ⟨hne, hcs⟩
  have hnone : ∀ path ∈ (none : Option (List Char)), IsTargetPart path := fun _ h =>
    absurd h (Option.not_mem_none _)
  have hnil : IsBlankFree [] := by simp [IsBlankFree]
  rw [htext]
  -- The brackets of the shortest link become part of the caption, the file, the path or the query
  -- that is open, and its `)` closes the whole.
  cases h with
  | @bracket cs hcs =>
    have hp : IsMarkdown ⟨['x'], none, some (cs ++ ['['])⟩ :=
      ⟨by rintro _ ⟨⟩; simp [IsCaption, hcs], by simp [IsTargetPart], hnone⟩
    exact ⟨.markdown, _, [], by decide, by simpa [marked] using Written.markdown hp hnil⟩
  | @file caption file hcs hfile =>
    have hp : IsMarkdown ⟨file ++ ['[', ']', '(', 'x'], none,
        if caption = [] then none else some caption⟩ :=
      ⟨hcaption hcs, hpart.append hfile, hnone⟩
    exact ⟨.markdown, _, [], by decide,
      by simpa [marked, getD_ite_nil] using Written.markdown hp hnil⟩
  | @path caption file path hcs hfile hpath =>
    have hp : IsMarkdown ⟨file, some (path ++ ['[', ']', '(', 'x']),
        if caption = [] then none else some caption⟩ :=
      ⟨hcaption hcs, hfile, by rintro _ ⟨⟩; exact hpart.append hpath⟩
    exact ⟨.markdown, _, [], by decide,
      by simpa [marked, getD_ite_nil] using Written.markdown hp hnil⟩
  | query hkind h =>
    exact ⟨_, _, _, hkind, h.append hkind (isQuery_iff.1 (by decide))⟩

/-- A link remains the longest end if no longer one is of its form. -/
theorem isLongestEnd_append_iff (h : Written kind w p q) :
    IsLongestEnd kind (u ++ w) w p q ↔
      ∀ v, v ≠ [] → v <:+ u → ∀ p' q', ¬ Written kind (v ++ w) p' q' := by
  constructor
  · rintro ⟨_, _, hmax⟩ v hv ⟨t, rfl⟩ p' q' hw
    have hle := hmax ⟨t, (List.append_assoc t v w).symm⟩ hw
    rw [List.length_append] at hle
    exact hv (List.length_eq_zero_iff.1 (by omega))
  · intro hnone
    refine ⟨List.suffix_append u w, h, fun {s' p' q'} hs' hw => ?_⟩
    rcases suffix_append_cases hs' with hs' | ⟨v, hv, hvu, rfl⟩
    · exact hs'.length_le
    · exact absurd hw (hnone v hv hvu p' q')

theorem hasEnd_append_iff :
    HasEnd kind (u ++ w) ↔
      HasEnd kind w ∨ ∃ v p q, v ≠ [] ∧ v <:+ u ∧ Written kind (v ++ w) p q := by
  constructor
  · rintro ⟨s, p, q, hs, hw⟩
    rcases suffix_append_cases hs with hs | ⟨v, hv, hvu, rfl⟩
    · exact .inl ⟨s, p, q, hs, hw⟩
    · exact .inr ⟨v, p, q, hv, hvu, hw⟩
  · rintro (⟨s, p, q, hs, hw⟩ | ⟨v, p, q, _, ⟨t, rfl⟩, hw⟩)
    · exact ⟨s, p, q, hs.trans (List.suffix_append u w), hw⟩
    · exact ⟨v ++ w, p, q, ⟨t, (List.append_assoc t v w).symm⟩, hw⟩

end LinkParts

namespace CodeLink

/-- A link that is a text of its own is found behind another text, if no longer end is a link that
    goes before it. -/
theorem parse?_append_eq_some_iff {u w : String} (h : parse? w = some l) (htext : l.text = w) :
    parse? (u ++ w) = some l ↔
      (∀ v, v ≠ [] → v <:+ u.toList → ∀ p q, ¬ Written .wiki (v ++ w.toList) p q) ∧
      (l.kind = .markdown →
        ∀ v, v ≠ [] → v <:+ u.toList → ∀ p q, ¬ Written .markdown (v ++ w.toList) p q) := by
  rw [parse?_eq_some_iff_isLongestEnd, htext] at h ⊢
  obtain ⟨⟨p, q, hend, hl⟩, hkind⟩ := h
  have hlongest : (∃ p q, IsLongestEnd l.kind (u ++ w).toList w.toList p q ∧
      l = p.toLink l.kind w.toList q) ↔
      ∀ v, v ≠ [] → v <:+ u.toList → ∀ p q, ¬ Written l.kind (v ++ w.toList) p q := by
    rw [String.toList_append, ← isLongestEnd_append_iff hend.written]
    constructor
    · rintro ⟨p', q', hend', _⟩
      obtain ⟨rfl, rfl⟩ := hend.written.unique hend'.written
      exact hend'
    · exact fun hend' => ⟨p, q, hend', hl⟩
  rw [hlongest]
  rcases hkind with hkind | ⟨hkind, hnone⟩
  · simp [hkind]
  · have hwiki : ¬ HasEnd .wiki (u ++ w).toList ↔
        ∀ v, v ≠ [] → v <:+ u.toList → ∀ p q, ¬ Written .wiki (v ++ w.toList) p q := by
      rw [String.toList_append, hasEnd_append_iff, or_iff_right hnone]
      simp only [not_exists, not_and]
      exact ⟨fun h v hv hvu p q => h v p q hv hvu, fun h v p q hv hvu => h v hv hvu p q⟩
    rw [hwiki, hkind]
    simp [and_comm]

/-- A link that is a text of its own is found behind another text unless an end of that text
    becomes part of a link with it. So every such link is found just if no end of the text before
    it is unfinished. -/
theorem parse?_append_iff (u : String) :
    (∀ w l, parse? w = some l → l.text = w →
      (parse? (u ++ w) = some l ↔
        (∀ v, v ≠ [] → v <:+ u.toList → ∀ p q, ¬ Written .wiki (v ++ w.toList) p q) ∧
        (l.kind = .markdown →
          ∀ v, v ≠ [] → v <:+ u.toList → ∀ p q, ¬ Written .markdown (v ++ w.toList) p q))) ∧
    ((∀ w l, parse? w = some l → l.text = w → parse? (u ++ w) = some l) ↔
      ∀ v, v <:+ u.toList → ¬ IsUnfinished v) := by
  refine ⟨fun w l => parse?_append_eq_some_iff, ?_⟩
  constructor
  · intro hall v hv hunfinished
    obtain ⟨kind, p, q, hkind, hw⟩ := hunfinished.exists_written
    -- The shortest link behind an unfinished end is only a part of a longer one.
    have hshortest : parse? shortest.text = some shortest := by decide
    obtain ⟨hwiki, hmarkdown⟩ :=
      (parse?_append_eq_some_iff hshortest rfl).1 (hall _ _ hshortest rfl)
    cases kind with
    | wiki => exact hwiki v hunfinished.ne_nil hv p q hw
    | markdown => exact hmarkdown rfl v hunfinished.ne_nil hv p q hw
    | inner => exact hkind rfl
  · intro hnone w l h htext
    obtain ⟨⟨p, q, hend, _⟩, hkind⟩ := parse?_eq_some_iff_isLongestEnd.1 h
    have hinner : l.kind ≠ .inner := by
      rcases hkind with hkind | ⟨hkind, _⟩ <;> simp [hkind]
    obtain ⟨w', hw'⟩ := hend.written.exists_eq_cons hinner
    rw [htext] at hw'
    -- What goes on with the bracket of the link is unfinished before it.
    rw [parse?_append_eq_some_iff h htext, hw']
    exact ⟨fun v hv hvu p q hw => hnone v hvu (isUnfinished_of_wiki hv hw),
      fun _ v hv hvu p q hw => hnone v hvu (isUnfinished_of_markdown hv hw)⟩

/-- A link behind another one is what was typed after that one. -/
theorem parse?_append_glued :
    let l : CodeLink := ⟨.wiki, "[[b.py]]", "b.py", none, none, none⟩
    parse? "[[b.py]]" = some l ∧ l.text = "[[b.py]]" ∧
      parse? ("[[a.py]]" ++ "[[b.py]]") ≠ some l ∧
      parse? ("[[a.py]]" ++ "[[b.py]]") =
        some ⟨.wiki, "[[a.py]][[b.py]]", "a.py", none, none, some "[[b.py]]"⟩ := by
  decide

end CodeLink

end SymbolPaths
