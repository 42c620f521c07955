import SymbolPaths.Proofs.Grammar.Acts
import SymbolPaths.Proofs.Text.Substitution

/-!
# One address for each language

A template of addresses has the marker of the language in it. Filling in the version leaves it
there, whatever the version is, as the two markers do not overlap, and may well bring more of them
in. So the address tells the language, and no two languages have one address.

* `make?_eq_ok_iff`: which templates are taken;
* `occurs_langMarker_substitute`: the marker of the language stays;
* `injective_location`: the address tells the language.

The version is put in first. What it is made of cannot be told, so the template that is left has
the marker of the language somewhere, maybe several times; what is put in for that stands between
pieces that do not depend on it, and can be told from the length of the whole.
-/

namespace SymbolPaths.GrammarSource

open Text

variable {template version : String} {s : GrammarSource}

theorem make?_eq_ok_iff : make? template version = .ok s ↔
    occurs versionMarker.toList template.toList ∧ occurs langMarker.toList template.toList ∧
      s = ⟨template, version⟩ := by
  rw [make?]
  by_cases hversion : occurs versionMarker.toList template.toList <;>
    by_cases hlang : occurs langMarker.toList template.toList <;>
    simp [List.find?, hversion, hlang, eq_comm]

/-- Filling in the version takes no marker of the language away. -/
theorem occurs_langMarker_substitute {cs : List Char} (value : List Char)
    (h : occurs langMarker.toList cs) :
    occurs langMarker.toList (substitute versionMarker.toList value cs) := by
  obtain ⟨u, w, rfl⟩ := occurs_iff_infix.1 h
  have hparts : substitute versionMarker.toList value (u ++ (langMarker.toList ++ w)) =
      substitute versionMarker.toList value u ++
        (langMarker.toList ++ substitute versionMarker.toList value w) :=
    substitute_append_marker (by decide) (by decide) (by decide) (by decide) value u w
  rw [List.append_assoc, hparts, occurs_iff_infix, ← List.append_assoc]
  exact List.infix_append _ _ _

theorem injective_location (h : occurs langMarker.toList s.template.toList) :
    Function.Injective s.location := by
  intro lang lang' hlocation
  have hversioned := occurs_langMarker_substitute s.version.toList h
  exact String.toList_inj.1 (injective_substitute (by decide) hversioned
    (String.ofList_injective hlocation))

/-- A load asks the network for nothing but what is at the address of its language. -/
theorem eq_location_of_request? {env : Loader} {lang url : String} {wait : LoadWait}
    (h : wait.request? env lang = some (.download url)) : url = env.source.location lang := by
  cases wait with
  | engine => cases h
  | probe flight | read flight | store flight payload write =>
    obtain ⟨_, _, h⟩ := Option.map_eq_some_iff.1 h
    cases h
  | fetch flight phase =>
    cases phase with
    | calling retry =>
      cases h
      rfl
    | waiting retry => cases h

/-- A distribution has different addresses for different languages, and loads that ask the network
    for what is at one address are loads of one language. -/
theorem injective_location_of_make? (h : make? template version = .ok s) :
    Function.Injective s.location ∧
      ∀ env : Loader, env.source = s → ∀ (lang lang' url : String) (wait wait' : LoadWait),
        wait.request? env lang = some (.download url) →
          wait'.request? env lang' = some (.download url) → lang = lang' := by
  obtain ⟨_, hoccurs, rfl⟩ := make?_eq_ok_iff.1 h
  have hinjective := injective_location (s := ⟨template, version⟩) hoccurs
  refine ⟨hinjective, fun env henv lang lang' url wait wait' hwait hwait' => hinjective ?_⟩
  rw [← henv, ← eq_location_of_request? hwait, eq_location_of_request? hwait']

/-- A version with both markers in it brings in one more place for the language. -/
theorem injective_location_nested :
    let s : GrammarSource :=
      ⟨"https://h/\x7bversion\x7d/\x7blang\x7d", "\x7blang\x7d-\x7bversion\x7d"⟩
    let env : Loader := { source := s, cache := none, policy := default }
    make? s.template s.version = .ok s ∧ s.location "c" ≠ s.location "cpp" ∧
      (LoadWait.fetch 1 (.calling 0)).request? env "c" =
        some (.download "https://h/c-\x7bversion\x7d/c") ∧
      (LoadWait.fetch 2 (.calling 0)).request? env "cpp" ≠
        some (.download "https://h/c-\x7bversion\x7d/c") := by
  intro s env
  have h : make? s.template s.version = .ok s := make?_eq_ok_iff.2 ⟨by decide, by decide, rfl⟩
  have hlocation : s.location "c" = "https://h/c-\x7bversion\x7d/c" := by decide +kernel
  have hrequest : (LoadWait.fetch 1 (.calling 0)).request? env "c" =
      some (.download "https://h/c-\x7bversion\x7d/c") :=
    congrArg (some ∘ LoadRequest.download) hlocation
  obtain ⟨hinjective, hloads⟩ := injective_location_of_make? h
  refine ⟨h, hinjective.ne (by decide), hrequest, fun hother => ?_⟩
  exact absurd (hloads env rfl "c" "cpp" _ _ _ hrequest hother) (by decide)

end SymbolPaths.GrammarSource
