import SymbolPaths.Proofs.Grammar.Sound

/-!
# After an abortion

Once a language was aborted it is gone, and comes back only with a load that is
entered in the list afterwards. Loads that were under way are not stopped at that
moment: each goes on until it sees that it was cancelled, wherever it waits, and
while a new load of the language may be under way, or over.

* `Loader.Turn.of_isCancelled`: what a turn may still make of a cancelled load;
* `abortsForGood_of_reachable`: what follows from an abortion (`AbortsForGood`).

Both statements are invariants of the events that follow. That a language is gone is one of the
list and of the grammars that are there: only a load that is entered puts an entry into the list,
and only a load with an entry puts a grammar there. That a load is cut off is one of its caller:
it was entered and is marked as aborted, so by what is true at any moment (`Sound`) its number is
cancelled, and a turn of a cancelled load begins no download, keeps nothing, and ends as aborted
if it ends.
-/

namespace SymbolPaths

namespace Loader

variable {env : Loader} {s s' : LoaderState} {language : Language} {reply : LoadReply}
  {wait : LoadWait} {load : Load} {flight : Nat} {lang : String}

/-- A cancelled load keeps nothing, begins no download, and ends as aborted. -/
theorem Turn.of_isCancelled (h : Turn env s language reply wait s' load)
    (hflight : wait.flight? = some flight) (hcancelled : s.isCancelled flight) :
    s'.loaded = s.loaded ∧ (load.isDownloading → wait.isDownloading) ∧
      ∀ result, load.result? = some result → result = .error (.aborted language.name) := by
  have hnever {f : Nat} (hf : wait.flight? = some f) : s.isCancelled f ≠ false := by
    rw [← Option.some.inj (hflight.symm.trans hf), hcancelled]
    exact nofun
  -- Before the entry in the list there is no number; after it, what would go on asks first.
  cases h with
  | stays => exact ⟨rfl, id, nofun⟩
  | fails => cases hflight
  | finds => cases hflight
  | yields => cases hflight
  | enters => cases hflight
  | goesOn hf hfollows =>
    refine ⟨rfl, ?_, nofun⟩
    cases hfollows with
    | reads => exact nofun
    | begins _ huncancelled => exact absurd huncancelled (hnever hf)
    | pauses => exact nofun
    | repeats huncancelled => exact absurd huncancelled (hnever hf)
    | stores => exact nofun
    | writes => exact nofun
  | breaksOff _ hf hcause =>
    refine ⟨LoaderState.loaded_release .., nofun, ?_⟩
    rintro _ ⟨⟩
    cases hcause with
    | cancelled => rfl
    | download huncancelled => exact absurd huncancelled (hnever hf)
    | payload huncancelled => exact absurd huncancelled (hnever hf)
  | succeeds _ hf huncancelled => exact absurd huncancelled (hnever hf)

/-- A language that is gone comes back only with a load of it that is entered in the
    list, or that was entered before and was not cancelled. -/
theorem Turn.of_gone (h : Turn env s language reply wait s' load)
    (hloaded : s.loaded.get? lang = none) (hinFlight : s.inFlight.get? lang = none) :
    (s'.loaded.get? lang = none ∧ s'.inFlight.get? lang = none) ∨
      language.name = lang ∧ (wait.flight? = none ∧ load.flight?.isSome ∨
        ∃ f, wait.flight? = some f ∧ s.isCancelled f = false) := by
  -- A turn brings an entry back by entering or by succeeding, under its own language's name.
  cases h with
  | stays => exact .inl ⟨hloaded, hinFlight⟩
  | fails => exact .inl ⟨hloaded, hinFlight⟩
  | finds => exact .inl ⟨hloaded, hinFlight⟩
  | yields => exact .inl ⟨hloaded, hinFlight⟩
  | enters _ _ _ hwait =>
    by_cases hlang : lang = language.name
    · refine .inr ⟨hlang.symm, .inl ⟨rfl, ?_⟩⟩
      rcases hwait with rfl | rfl <;> rfl
    · refine .inl ⟨hloaded, ?_⟩
      rw [LoaderState.get?_inFlight_register, if_neg hlang]
      exact hinFlight
  | goesOn => exact .inl ⟨hloaded, hinFlight⟩
  | breaksOff _ _ _ =>
    left
    rw [LoaderState.loaded_release, LoaderState.get?_inFlight_release]
    exact ⟨hloaded, by split <;> trivial⟩
  | succeeds _ hf huncancelled =>
    by_cases hlang : lang = language.name
    · exact .inr ⟨hlang.symm, .inr ⟨_, hf, huncancelled⟩⟩
    · left
      rw [LoaderState.loaded_release, LoaderState.get?_inFlight_release]
      refine ⟨(Table.get?_put ..).trans ((if_neg hlang).trans hloaded), by split <;> trivial⟩

/-- Giving a load up drops no grammar. -/
theorem loaded_drop (s : LoaderState) (language : Language) (wait : LoadWait) :
    (drop s (.waiting language wait)).loaded = s.loaded := by
  rw [drop_waiting]
  split
  · exact LoaderState.loaded_release ..
  · rfl

/-- Giving a load up enters nothing in the list. -/
theorem inFlight_drop_of_none (language : Language) (wait : LoadWait)
    (h : s.inFlight.get? lang = none) :
    (drop s (.waiting language wait)).inFlight.get? lang = none := by
  rw [drop_waiting]
  split
  · rw [LoaderState.get?_inFlight_release]
    split <;> trivial
  · exact h

end Loader

namespace Traffic

variable {env : Loader} {w w' : Traffic} {lang : String} {number downloads : Nat} {c c' : Caller}
  {e : Event}

/-- Whether a load of a language is entered in the list at an event. -/
def Enters (env : Loader) (lang : String) (w : Traffic) (e : Event) : Prop :=
  ∃ (number : Nat) (c c' : Caller), w.callers[number]? = some c ∧
    (w.step env e).callers[number]? = some c' ∧ c.lang = lang ∧ c.flight = none ∧ c'.flight.isSome

/-- Whether a language is neither there nor under way. -/
def IsGone (lang : String) (w : Traffic) : Prop :=
  w.state.loaded.get? lang = none ∧ w.state.inFlight.get? lang = none

/-- An abortion leaves neither a grammar nor a load in the list. -/
theorem isGone_abort (w : Traffic) (lang : String) : IsGone lang (w.step env (.abort lang)) :=
  ⟨(LoaderState.get?_loaded_abort ..).trans (if_pos rfl),
    (LoaderState.get?_inFlight_abort ..).trans (if_pos rfl)⟩

/-- A language that is gone stays so until a load enters the list again. -/
theorem isGone_step (hsound : Sound w.state w.callers) (hgone : IsGone lang w)
    (henters : ¬Enters env lang w e) : IsGone lang (w.step env e) := by
  have hhappens := happens_step env hsound.fresh e
  obtain ⟨hloaded, hinFlight⟩ := hgone
  rw [IsGone]
  rw [Enters] at henters
  generalize (w.step env e).state = s', (w.step env e).callers = callers' at hhappens henters ⊢
  cases hhappens with
  | nothing => exact ⟨hloaded, hinFlight⟩
  | calls => exact ⟨hloaded, hinFlight⟩
  | @turns number _ c _ _ _ load _ hc hload hturn hupdates =>
    obtain ⟨hlang, hflight⟩ := hsound.own hc hload
    rcases hturn.of_gone hloaded hinFlight with hgone | ⟨rfl, ⟨hwait, hentered⟩ | ⟨f, hf, hnot⟩⟩
    · exact hgone
    · have hsome : (c.carryOn load).flight.isSome := by
        rw [Caller.carryOn, Option.isSome_or, hentered, Bool.true_or]
      exact absurd ⟨number, c, c.carryOn load, hc, (hupdates number).trans (if_pos rfl),
        hlang.symm, hflight.trans hwait, hsome⟩ henters
    · -- A load that was not cancelled has an entry.
      have hentry := hsound.inFlight_iff.2 ⟨number, c, hc, hsound.holds hc hload hf hnot⟩
      cases hinFlight.symm.trans hentry
  | leaves =>
    rw [Loader.loaded_drop]
    exact ⟨hloaded, Loader.inFlight_drop_of_none _ _ hinFlight⟩
  | aborts =>
    rw [LoaderState.get?_loaded_abort, LoaderState.get?_inFlight_abort]
    exact ⟨by split <;> trivial, by split <;> trivial⟩

end Traffic

/-- Whether the load of a caller was entered in the list and cut off by an abortion, when
    it had begun some downloads, and has nothing to show since. -/
structure Caller.IsCutOff (lang : String) (downloads : Nat) (c : Caller) : Prop where
  /-- It is a load of the language. -/
  lang_eq : c.lang = lang
  /-- It was entered in the list. -/
  entered : c.flight.isSome
  /-- It was aborted since then. -/
  aborted : c.aborted
  /-- It has begun no download since then. -/
  downloads_eq : c.downloads = downloads
  /-- If it is over, it has ended as aborted. -/
  failed : ∀ result, c.result? = some result → result = .error (.aborted lang)

namespace Traffic

variable {env : Loader} {w w' : Traffic} {lang : String} {number downloads : Nat} {c c' : Caller}
  {e : Event}

/-- A load that is cut off stays so, whatever becomes of its caller: it is over, or is still
    cancelled and begins nothing. -/
theorem isCutOff_of_comes (hsound : Sound w.state w.callers) (hc : w.callers[number]? = some c)
    (hcutOff : c.IsCutOff lang downloads) {s' : LoaderState}
    (hcomes : Comes env w.state s' number c e c') : c'.IsCutOff lang downloads := by
  cases hcomes with
  | stays => exact hcutOff
  | @turns _ language wait load hload hturn =>
    obtain ⟨hlang, hflight⟩ := hsound.own hc hload
    -- Its number is still the one that was cancelled, whatever was loaded since.
    obtain ⟨f, hf⟩ := Option.isSome_iff_exists.1 hcutOff.entered
    have hcancelled : w.state.isCancelled f :=
      (hsound.isCancelled_iff hc (Caller.isRunning_of_load hload) hf).2 hcutOff.aborted
    obtain ⟨_, hdownloading, hresult⟩ := hturn.of_isCancelled (hflight ▸ hf) hcancelled
    constructor
    case lang_eq => exact hcutOff.lang_eq
    case entered => rw [Caller.carryOn, Option.isSome_or, hcutOff.entered, Bool.or_true]
    case aborted => exact hcutOff.aborted
    case downloads_eq =>
      rw [← hcutOff.downloads_eq, Caller.carryOn, if_neg]
      · rfl
      · rw [Bool.and_eq_true, Bool.not_eq_true', not_and, Bool.not_eq_false]
        intro h
        rw [Caller.isDownloading, hload]
        exact hdownloading h
    case failed =>
      intro result hr
      rw [hresult result hr, hlang, hcutOff.lang_eq]
  | leaves =>
    exact ⟨hcutOff.lang_eq, hcutOff.entered, hcutOff.aborted, hcutOff.downloads_eq,
      fun _ hr => by cases hr⟩
  | aborts =>
    constructor
    case lang_eq => rw [Caller.lang_abort, hcutOff.lang_eq]
    case entered => rw [Caller.flight_abort, hcutOff.entered]
    case aborted => rw [Caller.aborted_abort, hcutOff.aborted, Bool.true_or]
    case downloads_eq => rw [Caller.downloads_abort, hcutOff.downloads_eq]
    case failed => exact fun result hr => hcutOff.failed result (Caller.result?_abort .. ▸ hr)

/-- No event brings a load back that is cut off. -/
theorem isCutOff_step (hsound : Sound w.state w.callers) (e : Event)
    (h : ∃ c, w.callers[number]? = some c ∧ c.IsCutOff lang downloads) :
    ∃ c, (w.step env e).callers[number]? = some c ∧ c.IsCutOff lang downloads := by
  obtain ⟨c, hc, hcutOff⟩ := h
  obtain ⟨c', hc', hcomes⟩ := comes_step hsound.fresh e hc
  exact ⟨c', hc', isCutOff_of_comes hsound hc hcutOff hcomes⟩

/-- Whatever becomes of a load that was cut off, the grammars that are there stay as they
    are. -/
theorem loaded_step_of_isCutOff (hsound : Sound w.state w.callers)
    (hc : w.callers[number]? = some c) (hcutOff : c.IsCutOff lang downloads)
    (he : e = .giveUp number ∨ ∃ reply, e = .resume number reply) :
    (w.step env e).state.loaded = w.state.loaded := by
  have hhappens := happens_step env hsound.fresh e
  generalize (w.step env e).state = s', (w.step env e).callers = callers' at hhappens ⊢
  cases hhappens with
  | nothing => rfl
  | calls => rfl
  | @turns n reply d language wait _ _ _ hd hload hturn =>
    obtain rfl : n = number := by
      rcases he with he | ⟨_, he⟩
      · cases he
      · exact (Event.resume.inj he).1
    obtain rfl := Option.some.inj (hc.symm.trans hd)
    obtain ⟨f, hf⟩ := Option.isSome_iff_exists.1 hcutOff.entered
    have hcancelled : w.state.isCancelled f :=
      (hsound.isCancelled_iff hc (Caller.isRunning_of_load hload) hf).2 hcutOff.aborted
    exact (hturn.of_isCancelled ((hsound.own hc hload).2 ▸ hf) hcancelled).1
  | leaves => exact Loader.loaded_drop ..
  | aborts => rcases he with he | ⟨_, he⟩ <;> cases he

/-- What follows from aborting a language at some moment. -/
structure AbortsForGood (env : Loader) (lang : String) (w : Traffic) : Prop where
  /-- Until a load of the language is entered in the list, the language is neither there
      nor under way. -/
  gone : ∀ w', Leads env (fun w e => ¬Enters env lang w e) (w.step env (.abort lang)) w' →
    w'.state.has lang = false ∧ w'.state.isAcquiring lang = false
  /-- A load that was entered before, wherever it was then, begins no download any more, ends
      only as aborted, and has no part in what is there. -/
  cut_off : ∀ number c, w.callers[number]? = some c → c.lang = lang → c.isRunning →
    c.flight.isSome → ∀ w', Leads env (fun _ _ => True) (w.step env (.abort lang)) w' →
    ∃ c', w'.callers[number]? = some c' ∧ c'.downloads = c.downloads ∧
      (∀ result, c'.result? = some result → result = .error (.aborted lang)) ∧
      ∀ e, (e = .giveUp number ∨ ∃ reply, e = .resume number reply) →
        (w'.step env e).state.loaded = w'.state.loaded

/-- In every state that events lead to an abortion is for good. -/
theorem abortsForGood_of_reachable (h : Reachable env w) (lang : String) :
    AbortsForGood env lang w := by
  have hsound := sound_of_reachable h
  have hafter : Sound (w.step env (.abort lang)).state (w.step env (.abort lang)).callers :=
    sound_step hsound _
  constructor
  case gone =>
    intro w' hleads
    obtain ⟨_, hloaded, hinFlight⟩ := of_leads hafter (isGone_abort w lang)
      (fun _ _ hsound hgone hkeep => isGone_step hsound hgone hkeep) hleads
    rw [LoaderState.isAcquiring_eq_false, LoaderState.has, Table.contains, hloaded]
    exact ⟨rfl, hinFlight⟩
  case cut_off =>
    intro number c hc hlang hrunning hentered w' hleads
    -- From the abort on the caller is cut off, which every later step preserves.
    have hcutOff : ∃ c', (w.step env (.abort lang)).callers[number]? = some c' ∧
        c'.IsCutOff lang c.downloads := by
      refine ⟨c.abort lang, by simp only [step, abort, List.getElem?_map, hc, Option.map_some], ?_⟩
      constructor
      case lang_eq => rw [Caller.lang_abort, hlang]
      case entered => rw [Caller.flight_abort, hentered]
      case aborted => simp [Caller.aborted_abort, hlang, hrunning, hentered]
      case downloads_eq => rw [Caller.downloads_abort]
      case failed =>
        intro result hresult
        obtain ⟨_, _, hload⟩ := Caller.exists_of_isRunning hrunning
        rw [Caller.result?_abort, Caller.result?, hload] at hresult
        cases hresult
    obtain ⟨hsound', c', hc', hcutOff'⟩ :=
      of_leads (P := fun w => ∃ c', w.callers[number]? = some c' ∧ c'.IsCutOff lang c.downloads)
        hafter hcutOff (fun _ e hsound h _ => isCutOff_step hsound e h) hleads
    exact ⟨c', hc', hcutOff'.downloads_eq, hcutOff'.failed,
      fun e he => loaded_step_of_isCutOff hsound' hc' hcutOff' he⟩

/-- A load is aborted while it stores what it downloaded. Meanwhile the language is loaded
    again, and the old load ends as aborted beside the new one. -/
theorem abortsForGood_storing :
    let env : Loader := { source := .standard, cache := some ⟨"langs"⟩, policy := .once }
    let w := after env [.load "rust", .resume 0 (.engine (.ok ())), .resume 0 (.probed false),
      .resume 0 (.fetch (.returned (.ok []))), .resume 0 (.disk (.ok 0))]
    let again := [Event.abort "rust", .load "rust", .resume 1 (.engine (.ok ())),
      .resume 0 (.disk (.error .notFound)), .resume 0 (.disk (.ok 0))]
    Reachable env w ∧ w.state.isAcquiring "rust" ∧ AbortsForGood env "rust" w ∧
      ((again.foldl (step env) w).state.isAcquiring "rust" ∧
        (again.foldl (step env) w).result? 0 = some (.error (.aborted "rust"))) :=
  ⟨reachable_after _ _, by decide, abortsForGood_of_reachable (reachable_after _ _) "rust",
    by decide⟩

end Traffic

end SymbolPaths
