import Mathlib.Data.Set.Function
import SymbolPaths.TagPath

/-!
# The texts of paths

A path is written without any marks around its tags, so a tag with the delimiter in it reads as
several, and one empty tag reads as none. All other paths can be told from their texts, and every
text is that of one of them.

* `isReadable_parse`: what is read from a text is such a path;
* `parse_toText_eq_self_iff`: such paths are read back, and no others;
* `isCodec`: paths of this kind are as good as their texts.

There are two readings of the empty text, a path without tags and one with an empty tag; it is
read as the former. This and the delimiter are the only ways in which two paths can have one text.
-/

namespace SymbolPaths.TagPath

variable {p : TagPath}

/-- Whether a path can be told from its text: no tag has the delimiter in it, and it is not that
    of one empty tag. -/
def IsReadable (p : TagPath) : Prop := (∀ tag ∈ p.tags, delimiter ∉ tag.toList) ∧ p.tags ≠ [""]

/-- What is read from a text is readable: the delimiter is in no tag, and no tag is missing but that
    of the whole text. -/
theorem isReadable_parse (s : String) : (parse s).IsReadable := by
  rw [parse]
  split
  · exact ⟨fun _ h => absurd h List.not_mem_nil, (List.cons_ne_nil _ _).symm⟩
  · next hs =>
    refine ⟨fun tag htag => ?_, fun htags => hs ?_⟩
    · obtain ⟨piece, hpiece, rfl⟩ := List.mem_map.1 htag
      rw [String.toList_ofList]
      exact Text.notMem_of_mem_pieces hpiece
    · -- One empty piece is all that there is only of the empty text.
      obtain ⟨piece, hpieces, hpiece⟩ := List.map_eq_singleton_iff.1 htags
      rw [← Text.join_pieces delimiter s.toList, hpieces, Text.join]
      exact String.ofList_eq_empty_iff.1 hpiece

/-- A path is read back from its text exactly if it is readable. -/
theorem parse_toText_eq_self_iff : parse p.toText = p ↔ p.IsReadable := by
  constructor
  · intro h
    exact h ▸ isReadable_parse p.toText
  · rintro ⟨htags, hne⟩
    exact parse_toText htags fun h => hne (congrArg tags h)

/-- Paths that can be told from their texts correspond to texts, one to one. -/
theorem bijOn_toText : Set.BijOn toText {p | p.IsReadable} Set.univ := by
  have hinverse : Set.InvOn parse toText {p | p.IsReadable} Set.univ :=
    ⟨fun _ hp => parse_toText_eq_self_iff.2 hp, fun s _ => toText_parse s⟩
  exact hinverse.bijOn (fun _ _ => Set.mem_univ _) fun s _ => isReadable_parse s

/-- Every text is written back as it was read, and exactly the paths that can be told from their
    texts are read back as they were written: these correspond to the texts, one to one. -/
theorem isCodec : (∀ s, (parse s).toText = s) ∧ (∀ p, parse p.toText = p ↔ p.IsReadable) ∧
    Set.BijOn toText {p | p.IsReadable} Set.univ :=
  ⟨toText_parse, fun _ => parse_toText_eq_self_iff, bijOn_toText⟩

example : parse ">a>>b>" = ⟨["", "a", "", "b", ""]⟩ := by decide

example : toText ⟨[""]⟩ = toText empty := by decide

end SymbolPaths.TagPath
