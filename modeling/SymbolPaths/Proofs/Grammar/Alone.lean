import Mathlib.Logic.Relation
import SymbolPaths.Proofs.Grammar.Turn

/-!
# A load by itself

A load that nobody interferes with: from its start to its end nothing is done to the
loader but what the load does when it is resumed, with whatever replies. It leaves
the list of loads under way as it was, and of the grammars it keeps all that were
there and adds its own, if it gets one. That holds wherever it ends: before it is
entered in the list, with a download that fails, or with a payload that is none.

* `Loader.GoesOn`, `Loader.Loads`: what such a load leads to;
* `IsUnderway`: what the loader remembers while it goes on, and when it is over;
* `Loads.get?_inFlight`, `Loads.has_iff`: what it leaves behind.

What is said of such a load is relative to the state in which it began: the list and the grammars
are those of that state, with what the load has put into them. This is an invariant of its turns
(`IsUnderway`), one case for each stretch of the way: the load has not seen the list yet, it is
entered there, or it is over.
-/

namespace SymbolPaths

namespace Loader

/-- Whether a load that nobody interferes with leads from one moment to another. -/
def GoesOn (env : Loader) : LoaderState × Load → LoaderState × Load → Prop :=
  Relation.ReflTransGen fun p q => ∃ reply, q = resume env p.1 p.2 reply

/-- Whether a load of a language that nobody interferes with leads from one state to
    another and ends with a result. -/
def Loads (env : Loader) (s : LoaderState) (lang : String) (s' : LoaderState)
    (result : Except AcquireError GrammarHandle) : Prop :=
  GoesOn env (s, begin s lang) (s', .finished result)

/-- What the loader remembers when a load of a language has come some way that nobody
    interferes with, against what it remembered at the start. -/
inductive IsUnderway (s : LoaderState) (lang : String) : LoaderState × Load → Prop
  /-- The load is not entered in the list yet. -/
  | starts {s' : LoaderState} {language : Language} :
      language.name = lang → s'.loaded = s.loaded → s'.inFlight = s.inFlight →
      IsUnderway s lang (s', .waiting language .engine)
  /-- The load is entered in the list, where its language was free. -/
  | runs {s' : LoaderState} {language : Language} {wait : LoadWait} {flight : Nat} :
      language.name = lang → wait.flight? = some flight → s.inFlight.get? lang = none →
      s'.loaded = s.loaded → s'.inFlight = s.inFlight.put lang flight →
      IsUnderway s lang (s', .waiting language wait)
  /-- The load is over. -/
  | ended {s' : LoaderState} {result : Except AcquireError GrammarHandle} :
      (∀ other, s'.inFlight.get? other = s.inFlight.get? other) →
      (∀ other, s'.has other ↔ s.has other ∨ other = lang ∧ result.isOk) →
      IsUnderway s lang (s', .finished result)

variable {env : Loader} {s s' : LoaderState} {lang : String} {language : Language}
  {wait : LoadWait} {flight : Nat} {reply : LoadReply}
  {result : Except AcquireError GrammarHandle}

/-- A load that ends without a grammar of its own leaves everything as it was. -/
theorem IsUnderway.ended_of_eq (hloaded : s'.loaded = s.loaded)
    (hinFlight : ∀ other, s'.inFlight.get? other = s.inFlight.get? other)
    (hresult : result.isOk → s.has lang) : IsUnderway s lang (s', .finished result) := by
  refine .ended hinFlight fun other => ?_
  rw [LoaderState.has, hloaded, ← LoaderState.has]
  exact ⟨.inl, fun h => h.elim id fun ⟨hother, hok⟩ => hother ▸ hresult hok⟩

/-- A load that fails leaves all as it was, if it has left the list. -/
theorem IsUnderway.ended_of_error {e : AcquireError} (hloaded : s'.loaded = s.loaded)
    (hinFlight : ∀ other, s'.inFlight.get? other = s.inFlight.get? other) :
    IsUnderway s lang (s', .finished (.error e)) :=
  .ended_of_eq hloaded hinFlight fun h => absurd h Bool.false_ne_true

/-- Where a language was free before a load of it was entered, it is free again when
    that is taken off. -/
theorem get?_inFlight_release_of_put (hfree : s.inFlight.get? lang = none)
    (hinFlight : s'.inFlight = s.inFlight.put lang flight) (other : String) :
    (s'.release lang flight).inFlight.get? other = s.inFlight.get? other := by
  simp only [LoaderState.get?_inFlight_release, hinFlight, Table.get?_put, if_true, and_true]
  split
  · next hother => rw [hother, hfree]
  · rfl

/-- A load that is entered in the list is either still there after a turn, or it has
    taken itself off. -/
theorem IsUnderway.of_turn {after : LoaderState} {load : Load}
    (hflight : wait.flight? = some flight) (hfree : s.inFlight.get? language.name = none)
    (hloaded : s'.loaded = s.loaded)
    (hinFlight : s'.inFlight = s.inFlight.put language.name flight)
    (hturn : Turn env s' language reply wait after load) :
    IsUnderway s language.name (after, load) := by
  cases hturn with
  | stays => exact .runs rfl hflight hfree hloaded hinFlight
  | goesOn hbefore hfollows =>
    rw [hflight] at hbefore
    cases hbefore
    exact .runs rfl hfollows.flight? hfree hloaded hinFlight
  | breaksOff skip hbefore hcause =>
    rw [hflight] at hbefore
    cases hbefore
    exact .ended_of_error ((LoaderState.loaded_release _ _ _).trans hloaded)
      (get?_inFlight_release_of_put hfree hinFlight)
  | succeeds skip hbefore =>
    rw [hflight] at hbefore
    cases hbefore
    refine .ended (get?_inFlight_release_of_put hfree hinFlight) fun other => ?_
    rw [LoaderState.has, LoaderState.loaded_release, Table.contains, Table.get?_put]
    by_cases hother : other = language.name <;>
      simp [hother, LoaderState.has, Table.contains, hloaded, Except.isOk, Except.toBool]
  | _ => cases hflight

/-- A load that has begun has done nothing yet. -/
theorem isUnderway_begin (s : LoaderState) (lang : String) :
    IsUnderway s lang (s, begin s lang) := by
  rw [begin]
  split
  · exact .ended_of_error rfl fun _ => rfl
  · next language hfind =>
    split
    · next handle hloaded =>
      exact .ended_of_eq rfl (fun _ => rfl) fun _ => by
        rw [LoaderState.has, Table.contains, hloaded, Option.isSome_some]
    · exact .starts (Language.find?_eq_some hfind).2 rfl rfl

/-- Past the engine a load has found the grammar or is entered in the list. -/
theorem isUnderway_enter (hloaded : s'.loaded = s.loaded) (hinFlight : s'.inFlight = s.inFlight) :
    IsUnderway s language.name (enter env s' language) := by
  have hsame (other : String) : s'.inFlight.get? other = s.inFlight.get? other := by rw [hinFlight]
  simp only [enter]
  split
  · next handle hfound =>
    exact .ended_of_eq hloaded hsame fun _ => by
      rw [LoaderState.has, Table.contains, ← hloaded, hfound, Option.isSome_some]
  · split
    · exact .ended_of_error hloaded hsame
    · next hacquiring =>
      have hfree : s.inFlight.get? language.name = none := by
        rw [← hinFlight, ← s'.isAcquiring_eq_false]
        exact Bool.eq_false_iff.2 hacquiring
      have hentered : (s'.register language.name).inFlight =
          s.inFlight.put language.name (s'.register language.name).lastFlight := by
        rw [LoaderState.register, hinFlight]
      have hkept : (s'.register language.name).loaded = s.loaded := hloaded
      split
      · exact .runs rfl rfl hfree hkept hentered
      · -- Without a cache it goes on as if it had looked there in vain.
        have hturn : Turn env (s'.register language.name) language (.probed false)
            (.probe (s'.register language.name).lastFlight) _ _ := turn_beginDownload (.inl rfl)
        exact .of_turn rfl hfree hkept hentered hturn

/-- Carrying a load on keeps what is said of it. -/
theorem IsUnderway.resume {p : LoaderState × Load} (h : IsUnderway s lang p) (reply : LoadReply) :
    IsUnderway s lang (resume env p.1 p.2 reply) := by
  cases h with
  | starts hlang hloaded hinFlight =>
    subst hlang
    cases reply with
    | engine result =>
      cases result with
      | error e => exact .ended_of_error hloaded fun _ => by rw [hinFlight]
      | ok => exact isUnderway_enter hloaded hinFlight
    | _ => exact .starts rfl hloaded hinFlight
  | runs hlang hflight hfree hloaded hinFlight =>
    subst hlang
    exact .of_turn hflight hfree hloaded hinFlight (turn_resume_of_flight? hflight)
  | ended hinFlight hhas => cases reply <;> exact .ended hinFlight hhas

/-- A load that is by itself stays so at every turn. -/
theorem IsUnderway.goesOn {p q : LoaderState × Load} (h : IsUnderway s lang p)
    (hgoes : GoesOn env p q) : IsUnderway s lang q := by
  induction hgoes with
  | refl => exact h
  | tail _ hstep ih =>
    obtain ⟨reply, rfl⟩ := hstep
    exact ih.resume reply

/-- A load by itself leaves the list of loads under way as it was. -/
theorem Loads.get?_inFlight (h : Loads env s lang s' result) (other : String) :
    s'.inFlight.get? other = s.inFlight.get? other := by
  cases (isUnderway_begin s lang).goesOn h with
  | ended hinFlight _ => exact hinFlight other

/-- A load by itself keeps the grammars that are there and adds its own, if it gets
    one. -/
theorem Loads.has_iff (h : Loads env s lang s' result) (other : String) :
    s'.has other ↔ s.has other ∨ other = lang ∧ result.isOk := by
  cases (isUnderway_begin s lang).goesOn h with
  | ended _ hhas => exact hhas other

end Loader

end SymbolPaths
