import SymbolPaths.Proofs.Grammar.Sound

/-!
# The list of loads under way

Whatever happens and in whatever order, the list tells which loads are under way. An
old load that was aborted does not take the entry of a new one away, no entry is left
behind, and a load that finds an entry of its language has another load beside it.

* `isExact_of_reachable`: all of this (`IsExact`).

The list itself is small; what has to be proved is that it and the loads fit together at any
moment, which is `Sound`. Here that is turned into what can be asked of the list from outside: who
has an entry, who is turned away and because of whom, and what is left when an old load goes after
a new load of its language was entered.
-/

namespace SymbolPaths

namespace Loader

variable {env : Loader} {s s' : LoaderState} {language : Language} {wait : LoadWait}
  {reply : LoadReply} {lang other : String}

/-- Only past the engine is a load turned away because of another one, unless the engine
    or a download failed in just that way. -/
theorem Turn.of_inProgress
    (h : Turn env s language reply wait s' (.finished (.error (.inProgress lang))))
    (hreply : reply.error? ≠ some (.inProgress lang))
    (hmake : ∀ payload, env.make language.name payload ≠ .error (.inProgress lang)) :
    language.name = lang ∧ wait = .engine ∧ reply = .engine (.ok ()) ∧
      s.isAcquiring language.name := by
  cases h with
  | fails he => exact absurd (he ▸ rfl) hreply
  | yields he _ hacquiring => exact ⟨rfl, rfl, he, hacquiring⟩
  | breaksOff _ _ hcause =>
    cases hcause with
    | download _ he => exact absurd (he ▸ rfl) hreply
    | payload _ _ hload => exact absurd hload (hmake _)

/-- Who comes past the engine while the language is loaded by another one is told so, and enters
    nothing. -/
theorem resume_of_isAcquiring (hloaded : s.loaded.get? language.name = none)
    (hacquiring : s.isAcquiring language.name) :
    resume env s (.waiting language .engine) (.engine (.ok ())) =
      ({ s with ready := true }, .finished (.error (.inProgress language.name))) := by
  have hacquiring' : ({ s with ready := true } : LoaderState).isAcquiring language.name :=
    hacquiring
  simp only [resume, enter, hloaded, hacquiring', if_true]

/-- No load is told so when it begins, before it has seen the list. -/
theorem begin_ne_inProgress : Loader.begin s lang ≠ .finished (.error (.inProgress other)) := by
  intro h
  rw [Loader.begin] at h
  split at h
  · cases h
  · split at h <;> cases h

end Loader

namespace Traffic

variable {env : Loader} {w : Traffic}

/-- The list of loads under way tells the truth. -/
structure IsExact (env : Loader) (w : Traffic) : Prop where
  /-- It has a number for a language exactly if a load of that language was entered under
      it, and is neither over, nor given up, nor aborted. -/
  inFlight_iff : ∀ lang f, w.state.inFlight.get? lang = some f ↔
    ∃ c ∈ w.callers, c.Holds lang f
  /-- Whatever becomes of a load, it leaves the entries of others alone. -/
  others_kept : ∀ number c e lang f, w.callers[number]? = some c →
    (e = .giveUp number ∨ ∃ reply, e = .resume number reply) →
    w.state.inFlight.get? lang = some f → c.flight ≠ some f →
    (w.step env e).state.inFlight.get? lang = some f
  /-- No language is both there and under way. -/
  apart : ∀ lang, ¬(w.state.has lang ∧ w.state.isAcquiring lang)
  /-- A load is turned away exactly if, when it comes past the engine, there is another
      load of its language under way. -/
  rejected_iff : ∀ number c reply lang, w.callers[number]? = some c → c.isRunning →
    reply.error? ≠ some (.inProgress lang) →
    (∀ payload, env.make c.lang payload ≠ .error (.inProgress lang)) →
    ((w.step env (.resume number reply)).result? number = some (.error (.inProgress lang)) ↔
      c.lang = lang ∧ reply = .engine (.ok ()) ∧
        (∃ language, c.load = some (.waiting language .engine)) ∧
        ∃ other d f, other ≠ number ∧ w.callers[other]? = some d ∧ d.Holds lang f)
  /-- No load is turned away as it starts. -/
  not_rejected_at_start : ∀ lang other,
    (Caller.start w.state lang).result? ≠ some (.error (.inProgress other))

/-- In every state that events lead to, the list of loads under way is what it should be. -/
theorem isExact_of_reachable (h : Reachable env w) : w.IsExact env := by
  have hsound := sound_of_reachable h
  constructor
  case inFlight_iff =>
    intro lang f
    simp only [hsound.inFlight_iff, List.mem_iff_getElem?]
    grind
  case others_kept =>
    intro number c e lang f hc he hf hne
    obtain ⟨i, d, hd, hholds⟩ := hsound.inFlight_iff.1 hf
    have hi : i ≠ number := by
      rintro rfl
      exact hne (Option.some.inj (hd.symm.trans hc) ▸ hholds.2.2.2)
    refine (sound_step hsound e).inFlight_iff.2 ⟨i, d, ?_, hholds⟩
    rcases he with rfl | ⟨reply, rfl⟩
    · rw [getElem?_callers_giveUp hi, hd]
    · rw [getElem?_callers_resume hi, hd]
  case apart =>
    rintro lang ⟨hhas, hacquiring⟩
    obtain ⟨f, hf⟩ := (LoaderState.isAcquiring_eq_true ..).1 hacquiring
    simp [LoaderState.has, Table.contains, hsound.apart hf] at hhas
  case rejected_iff =>
    intro number c reply lang hc hrunning hreply hmake
    obtain ⟨language, wait, hload⟩ := Caller.exists_of_isRunning hrunning
    obtain ⟨hlang, hflight⟩ := hsound.own hc hload
    rw [result?_resume hc hload]
    constructor
    · intro hresult
      have hturn : Loader.Turn env w.state language reply wait _ _ :=
        Loader.turn_resume hsound.fresh wait
      rw [Load.eq_finished_of_result? hresult] at hturn
      -- The turn that ends in this error found the language acquired, so some caller holds it, and
      -- it is not the one that was turned away.
      obtain ⟨rfl, rfl, rfl, hacquiring⟩ := hturn.of_inProgress hreply (hlang ▸ hmake)
      obtain ⟨f, hf⟩ := (LoaderState.isAcquiring_eq_true ..).1 hacquiring
      obtain ⟨i, d, hd, hholds⟩ := hsound.inFlight_iff.1 hf
      refine ⟨hlang.symm, rfl, ⟨language, hload⟩, i, d, f, ?_, hd, hholds⟩
      rintro rfl
      obtain rfl := Option.some.inj (hd.symm.trans hc)
      exact Caller.not_holds_of_flight hflight hholds
    · rintro ⟨rfl, rfl, ⟨language', hload'⟩, i, d, f, _, hd, hholds⟩
      obtain ⟨rfl, rfl⟩ := Load.waiting.inj (Option.some.inj (hload.symm.trans hload'))
      have hf : w.state.inFlight.get? language.name = some f :=
        hsound.inFlight_iff.2 ⟨i, d, hd, hlang ▸ hholds⟩
      rw [Loader.resume_of_isAcquiring (hsound.apart hf)
        ((LoaderState.isAcquiring_eq_true ..).2 ⟨f, hf⟩), hlang]
      rfl
  case not_rejected_at_start =>
    intro lang other hresult
    exact Loader.begin_ne_inProgress (Load.eq_finished_of_result? hresult)

/-- When the first load of a language that was aborted and loaded again is given up, the
    entry of the second stays. -/
theorem isExact_loaded_again :
    let env : Loader := { source := .standard, cache := none, policy := .once }
    let w := after env [.load "rust", .resume 0 (.engine (.ok ())), .abort "rust", .load "rust",
      .resume 1 (.engine (.ok ())), .giveUp 0]
    Reachable env w ∧ w.IsExact env ∧ w.state.inFlight.get? "rust" = some 2 :=
  ⟨reachable_after _ _, isExact_of_reachable (reachable_after _ _), by decide⟩

end Traffic

end SymbolPaths
