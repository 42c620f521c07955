import SymbolPaths.Proofs.Grammar.Abort

/-!
# Abortions that are not heeded

An abortion finds a load by its entry in the list, and a load is entered only when the
engine is up. So a load that still waits for the engine does not notice that its language
is aborted: it is entered afterwards, and ends with a grammar like any other.

* `Loader.exists_replies`: what a load that waits for the engine may come to;
* `isBarren_step`: a language of which no grammar can be made;
* `isFruitless_abort_iff`: which loads heed an abortion.

To show that an abortion comes to nothing, a future has to be given in which the load ends with
its grammar: the engine comes up, and a payload is found that can be made into a grammar. Such a
future exists unless no payload at all is good enough (`IsBarren`), or the load has come past the
engine by then, when `Caller.IsCutOff` says what becomes of it. These are all cases, so the exact
condition can be stated.
-/

namespace SymbolPaths

namespace Loader

variable {env : Loader} {s s' : LoaderState} {language : Language} {reply : LoadReply}
  {wait : LoadWait} {load : Load} {lang : String} {payload : Bytes} {grammar : Grammar}

/-- A payload that the engine accepts ends a load with its grammar, if the load was not
    cancelled. -/
theorem commit_of_make {flight : Nat} (huncancelled : s.isCancelled flight = false)
    (hmake : env.make language.name payload = .ok grammar) :
    (commit env s language flight payload).2 = .finished (.ok ⟨language, grammar⟩) := by
  simp only [commit, huncancelled, hmake, conclude, Bool.false_eq_true, if_false]

/-- A load that waits for the engine may end with a grammar, if nothing stands in its way and
    the engine accepts some payload: that may be in the cache, or it comes as a download. -/
theorem exists_replies (hfresh : s.isCancelled (s.lastFlight + 1) = false)
    (hloaded : s.loaded.get? language.name = none)
    (hfree : s.isAcquiring language.name = false)
    (hmake : env.make language.name payload = .ok grammar) :
    ∃ replies : List LoadReply,
      (replies.foldl (fun p reply => resume env p.1 p.2 reply)
        (s, .waiting language .engine)).2 = .finished (.ok ⟨language, grammar⟩) := by
  obtain ⟨r, hr⟩ : ∃ r, r = { s with ready := true }.register language.name := ⟨_, rfl⟩
  have huncancelled : r.isCancelled (s.lastFlight + 1) = false := hr ▸ hfresh
  have hup : ({ s with ready := true } : LoaderState).isAcquiring language.name = false := hfree
  -- With a cache the payload is found on the disk, without one it is downloaded at once.
  cases hcache : env.cache with
  | some cache =>
    have henter : resume env s (.waiting language .engine) (.engine (.ok ())) =
        (r, .waiting language (.probe (s.lastFlight + 1))) := by
      simp only [resume, enter, hloaded, hup, hcache, hr, Bool.false_eq_true, if_false,
        Option.isSome_some, if_true]
      rfl
    refine ⟨[.engine (.ok ()), .probed true, .read (.ok payload)], ?_⟩
    simp only [List.foldl_cons, List.foldl_nil, henter]
    exact commit_of_make huncancelled hmake
  | none =>
    have henter : resume env s (.waiting language .engine) (.engine (.ok ())) =
        (r, .waiting language (.fetch (s.lastFlight + 1) (.calling 0))) := by
      have hbegin : beginDownload env r language (s.lastFlight + 1) =
          (r, .waiting language (.fetch (s.lastFlight + 1) (.calling 0))) := by
        simp only [beginDownload, huncancelled]
        rfl
      rw [← hbegin, hr]
      simp only [resume, enter, hloaded, hup, hcache, Bool.false_eq_true, if_false,
        Option.isSome_none]
      rfl
    have hfetched : resume env r (.waiting language (.fetch (s.lastFlight + 1) (.calling 0)))
        (.fetch (.returned (.ok payload))) = commit env r language (s.lastFlight + 1) payload := by
      simp only [resume, huncancelled, Retry.step, Bool.false_eq_true, if_false, download, persist,
        hcache, Option.isNone_none, Bool.true_or, if_true]
    refine ⟨[.engine (.ok ()), .fetch (.returned (.ok payload))], ?_⟩
    simp only [List.foldl_cons, List.foldl_nil, henter, hfetched]
    exact commit_of_make huncancelled hmake

/-- Where the engine accepts no payload for a language, it stays away. -/
theorem Turn.get?_loaded (h : Turn env s language reply wait s' load)
    (hmake : ∀ payload grammar, env.make lang payload ≠ .ok grammar)
    (hloaded : s.loaded.get? lang = none) : s'.loaded.get? lang = none := by
  cases h with
  | breaksOff => rwa [LoaderState.loaded_release]
  | @succeeds _ _ payload grammar _ _ _ _ hgrammar =>
    have hne : lang ≠ language.name := fun hlang => hmake payload grammar (hlang ▸ hgrammar)
    rw [LoaderState.loaded_release, Table.get?_put, if_neg hne]
    exact hloaded
  | _ => exact hloaded

/-- And no load of it ends with a grammar. -/
theorem Turn.of_make_ne_ok (h : Turn env s language reply wait s' load)
    (hmake : ∀ payload grammar, env.make language.name payload ≠ .ok grammar)
    (hloaded : s.loaded.get? language.name = none) :
    s'.loaded = s.loaded ∧ ∀ handle, load.result? ≠ some (.ok handle) := by
  cases h with
  | finds _ hfound => cases hloaded.symm.trans hfound
  | breaksOff => exact ⟨LoaderState.loaded_release .., nofun⟩
  | succeeds _ _ _ _ hgrammar => exact absurd hgrammar (hmake _ _)
  | _ => exact ⟨rfl, nofun⟩

end Loader

/-- A load under way has no result yet. -/
theorem Caller.result?_of_isRunning {c : Caller} (h : c.isRunning) : c.result? = none := by
  obtain ⟨_, _, hload⟩ := exists_of_isRunning h
  rw [result?, hload]
  rfl

namespace Traffic

variable {env : Loader} {w w' : Traffic} {lang : String} {number : Nat} {c : Caller} {e : Event}

/-- Whether the load of a caller ends without a grammar, and has no part in what is there,
    whatever happens from some moment on. -/
def IsFruitless (env : Loader) (number : Nat) (w : Traffic) : Prop :=
  ∀ w', Leads env (fun _ _ => True) w w' →
    (∀ handle, w'.result? number ≠ some (.ok handle)) ∧
      ∀ reply, (w'.step env (.resume number reply)).state.loaded = w'.state.loaded

/-! ### Loads that are entered in the list -/

theorem getElem?_callers_abort (hc : w.callers[number]? = some c) :
    (w.step env (.abort lang)).callers[number]? = some (c.abort lang) := by
  simp only [step, abort, List.getElem?_map, hc, Option.map_some]

/-- A load that is entered in the list is cut off when its language is aborted. -/
theorem isCutOff_abort (hc : w.callers[number]? = some c) (hrunning : c.isRunning)
    (hentered : c.flight.isSome) :
    ∃ c', (w.step env (.abort c.lang)).callers[number]? = some c' ∧
      c'.IsCutOff c.lang c.downloads := by
  refine ⟨c.abort c.lang, getElem?_callers_abort hc, ?_⟩
  constructor
  case lang_eq => rw [Caller.lang_abort]
  case entered => rw [Caller.flight_abort, hentered]
  case aborted => simp [Caller.aborted_abort, hrunning, hentered]
  case downloads_eq => rw [Caller.downloads_abort]
  case failed =>
    intro result hresult
    rw [Caller.result?_abort, Caller.result?_of_isRunning hrunning] at hresult
    cases hresult

/-- A load that is cut off comes to nothing, whatever happens afterwards. -/
theorem isFruitless_of_isCutOff {downloads : Nat} (hsound : Sound w.state w.callers)
    (h : ∃ c, w.callers[number]? = some c ∧ c.IsCutOff lang downloads) :
    IsFruitless env number w := by
  intro w' hleads
  obtain ⟨hsound', c', hc', hcutOff⟩ :=
    of_leads (P := fun w => ∃ c, w.callers[number]? = some c ∧ c.IsCutOff lang downloads)
      hsound h (fun _ e hsound h _ => isCutOff_step hsound e h) hleads
  refine ⟨fun handle hresult => ?_, fun reply =>
    loaded_step_of_isCutOff hsound' hc' hcutOff (.inr ⟨reply, rfl⟩)⟩
  rw [Traffic.result?, hc', Option.bind_some] at hresult
  cases hcutOff.failed _ hresult

/-! ### Languages of which no grammar can be made -/

/-- Whether a language is not there, and a caller asks for it whose load has not ended with a
    grammar. -/
def IsBarren (lang : String) (number : Nat) (w : Traffic) : Prop :=
  w.state.loaded.get? lang = none ∧ ∃ c, w.callers[number]? = some c ∧ c.lang = lang ∧
    ∀ handle, c.result? ≠ some (.ok handle)

/-- As long as no grammar can be made for a language, no event makes one for its load. -/
theorem isBarren_step (hmake : ∀ payload grammar, env.make lang payload ≠ .ok grammar)
    (hsound : Sound w.state w.callers) (h : IsBarren lang number w) (e : Event) :
    IsBarren lang number (w.step env e) := by
  obtain ⟨hloaded, c, hc, rfl, hresult⟩ := h
  obtain ⟨c', hc', hcomes⟩ := comes_step hsound.fresh e hc
  have hhappens := happens_step env hsound.fresh e
  refine ⟨?_, c', hc', ?_⟩
  · generalize (w.step env e).state = s', (w.step env e).callers = callers' at hhappens
    cases hhappens with
    | nothing => exact hloaded
    | calls => exact hloaded
    | turns _ _ hturn => exact hturn.get?_loaded hmake hloaded
    | leaves => rwa [Loader.loaded_drop]
    | aborts =>
      rw [LoaderState.get?_loaded_abort]
      split <;> trivial
  · cases hcomes with
    | stays => exact ⟨rfl, hresult⟩
    | turns hload hturn =>
      obtain ⟨hlang, _⟩ := hsound.own hc hload
      exact ⟨rfl, (hturn.of_make_ne_ok (hlang ▸ hmake) (hlang ▸ hloaded)).2⟩
    | leaves => exact ⟨rfl, nofun⟩
    | aborts =>
      refine ⟨Caller.lang_abort .., fun handle => ?_⟩
      rw [Caller.result?_abort]
      exact hresult handle

/-- Such a load puts no grammar under any name when it is resumed. -/
theorem loaded_resume_of_isBarren (hmake : ∀ payload grammar, env.make lang payload ≠ .ok grammar)
    (hsound : Sound w.state w.callers) (h : IsBarren lang number w) (reply : LoadReply) :
    (w.step env (.resume number reply)).state.loaded = w.state.loaded := by
  obtain ⟨hloaded, c, hc, rfl, _⟩ := h
  have hhappens := happens_step env hsound.fresh (.resume number reply)
  generalize (w.step env (.resume number reply)).state = s',
    (w.step env (.resume number reply)).callers = callers' at hhappens ⊢
  cases hhappens with
  | nothing => rfl
  | calls => rfl
  | turns hd hload hturn =>
    obtain rfl := Option.some.inj (hc.symm.trans hd)
    obtain ⟨hlang, _⟩ := hsound.own hc hload
    exact (hturn.of_make_ne_ok (hlang ▸ hmake) (hlang ▸ hloaded)).1

/-- A load of a language for which no grammar can be made comes to nothing, by induction on what
    happens. -/
theorem isFruitless_of_isBarren (hmake : ∀ payload grammar, env.make lang payload ≠ .ok grammar)
    (hsound : Sound w.state w.callers) (h : IsBarren lang number w) :
    IsFruitless env number w := by
  intro w' hleads
  obtain ⟨hsound', hbarren⟩ := of_leads hsound h
    (fun _ e hsound hbarren _ => isBarren_step hmake hsound hbarren e) hleads
  refine ⟨fun handle hresult => ?_, loaded_resume_of_isBarren hmake hsound' hbarren⟩
  obtain ⟨_, c, hc, _, hnot⟩ := hbarren
  rw [Traffic.result?, hc] at hresult
  exact hnot handle hresult

/-! ### Loads that wait for the engine -/

/-- A load may get any replies one after the other, while nothing else happens. -/
theorem exists_leads_replies (env : Loader) (replies : List LoadReply) {load : Load}
    (hc : w.callers[number]? = some c) (hload : c.load = some load) :
    ∃ w', Leads env (fun _ _ => True) w w' ∧ ∃ c', w'.callers[number]? = some c' ∧
      c'.load = some (replies.foldl (fun p reply => Loader.resume env p.1 p.2 reply)
        (w.state, load)).2 := by
  induction replies generalizing w c load with
  | nil => exact ⟨w, .refl, c, hc, hload⟩
  | cons reply replies ih =>
    have hnext : (w.step env (.resume number reply)).callers[number]? =
        some (c.carryOn (Loader.resume env w.state load reply).2) :=
      getElem?_callers_resume_self hc hload
    obtain ⟨w', hleads, c', hc', hload'⟩ := ih hnext rfl
    refine ⟨w', .head ⟨_, trivial, rfl⟩ hleads, c', hc', ?_⟩
    rw [hload', step_resume hc hload]
    rfl

/-- A load that is not entered in the list yet comes to a grammar after the abortion, if a payload
    can be made into one. Whoever is in its way is out of it by then: the abortion has emptied the
    entry and taken the grammar away. -/
theorem not_isFruitless_abort (hsound : Sound w.state w.callers)
    (hc : w.callers[number]? = some c) (hrunning : c.isRunning) (hflight : c.flight = none)
    {payload : Bytes} {grammar : Grammar} (hmake : env.make c.lang payload = .ok grammar) :
    ¬IsFruitless env number (w.step env (.abort c.lang)) := by
  intro hfruitless
  obtain ⟨language, wait, hload⟩ := Caller.exists_of_isRunning hrunning
  obtain ⟨hlang, hown⟩ := hsound.own hc hload
  -- Only a load that waits for the engine has no number.
  obtain rfl : wait = .engine := by
    rw [hflight] at hown
    cases wait with
    | engine => rfl
    | _ => cases hown
  have hc' : (w.step env (.abort c.lang)).callers[number]? = some (c.abort c.lang) :=
    getElem?_callers_abort hc
  have hafter : Sound (w.step env (.abort c.lang)).state (w.step env (.abort c.lang)).callers :=
    sound_step hsound _
  -- The abortion leaves nothing behind that the load could notice when it is entered.
  obtain ⟨hloaded, hinFlight⟩ : IsGone language.name (w.step env (.abort c.lang)) := by
    rw [hlang]
    exact isGone_abort w c.lang
  rw [← hlang] at hmake
  obtain ⟨replies, hreplies⟩ := Loader.exists_replies hafter.fresh hloaded
    ((LoaderState.isAcquiring_eq_false ..).2 hinFlight) hmake
  obtain ⟨w', hleads, d, hd, hdload⟩ :=
    exists_leads_replies env replies hc' ((Caller.load_abort ..).trans hload)
  refine (hfruitless w' hleads).1 ⟨language, grammar⟩ ?_
  rw [Traffic.result?, hd, Option.bind_some, Caller.result?, hdload, hreplies]
  rfl

/-- A load heeds an abortion exactly if it is entered in the list by then, unless it cannot
    succeed anyway. -/
theorem isFruitless_abort_iff (h : Reachable env w) (hc : w.callers[number]? = some c)
    (hrunning : c.isRunning) :
    IsFruitless env number (w.step env (.abort c.lang)) ↔
      c.flight.isSome ∨ ∀ payload grammar, env.make c.lang payload ≠ .ok grammar := by
  have hsound := sound_of_reachable h
  have hafter : Sound (w.step env (.abort c.lang)).state (w.step env (.abort c.lang)).callers :=
    sound_step hsound _
  constructor
  · intro hfruitless
    by_contra hnot
    push Not at hnot
    obtain ⟨hflight, payload, grammar, hmake⟩ := hnot
    exact not_isFruitless_abort hsound hc hrunning
      (Option.not_isSome_iff_eq_none.1 hflight) hmake hfruitless
  · rintro (hentered | hmake)
    · exact isFruitless_of_isCutOff hafter (isCutOff_abort hc hrunning hentered)
    · refine isFruitless_of_isBarren hmake hafter ⟨(isGone_abort w c.lang).1, c.abort c.lang, ?_⟩
      refine ⟨getElem?_callers_abort hc, Caller.lang_abort .., fun handle => ?_⟩
      rw [Caller.result?_abort, Caller.result?_of_isRunning hrunning]
      exact (Option.some_ne_none _).symm

/-- A load that downloads heeds an abortion. -/
theorem isFruitless_abort_downloading :
    let env : Loader := { source := .standard, cache := none, policy := .once }
    let language : Language := ⟨"rust", [".rs"], some Query.rust⟩
    let c : Caller := ⟨"rust", some (.waiting language (.fetch 1 (.calling 0))), some 1, false, 1⟩
    let w := after env [.load "rust", .resume 0 (.engine (.ok ()))]
    Reachable env w ∧ w.callers[0]? = some c ∧ c.isRunning ∧
      IsFruitless env 0 (w.step env (.abort "rust")) := by
  intro env language c w
  have hc : w.callers[0]? = some c := rfl
  exact ⟨reachable_after _ _, hc, rfl,
    (isFruitless_abort_iff (reachable_after _ _) hc rfl).2 (.inl rfl)⟩

/-- A load that waits for the engine does not: the grammar is there in the end. -/
theorem not_isFruitless_abort_starting :
    let env : Loader := { source := .standard, cache := none, policy := .once }
    let w := after env [.load "rust"]
    let up := Event.resume 0 (.engine (.ok ()))
    let downloads := Event.resume 0 (.fetch (.returned (.ok (Text.encode "grammar:rust"))))
    let w' := ((w.step env (.abort "rust")).step env up).step env downloads
    Reachable env w ∧ w.callers.map (fun c => (c.lang, c.isRunning)) = [("rust", true)] ∧
      w'.result? 0 = some (.ok ⟨⟨"rust", [".rs"], some Query.rust⟩, ⟨"rust"⟩⟩) ∧
      w'.state.has "rust" ∧ ¬IsFruitless env 0 (w.step env (.abort "rust")) := by
  intro env w up downloads w'
  have hresult : w'.result? 0 = some (.ok ⟨⟨"rust", [".rs"], some Query.rust⟩, ⟨"rust"⟩⟩) := by
    decide +kernel
  refine ⟨reachable_after _ _, by decide, hresult, by decide +kernel, fun hfruitless => ?_⟩
  have hleads : Leads env (fun _ _ => True) (w.step env (.abort "rust")) w' :=
    .tail (.tail .refl ⟨up, trivial, rfl⟩) ⟨downloads, trivial, rfl⟩
  exact (hfruitless w' hleads).1 _ hresult

end Traffic

end SymbolPaths
