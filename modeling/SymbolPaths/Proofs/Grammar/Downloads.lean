import SymbolPaths.Proofs.Grammar.Abort
import SymbolPaths.Proofs.Grammar.InFlight

/-!
# Downloads

Loads of one language that run side by side do not download it side by side, and none
downloads what is there. A load downloads only while the entry of its language is its
own, so what is known of the list (`Sound`) tells all but how often it does so.

* `LoadWait.HasBegun`: how many downloads a load has begun, by what it waits for;
* `isSparing_of_reachable`: when downloads are begun, and how many (`IsSparing`).

How often a load downloads is counted at its caller (`IsFrugal`), as the loader keeps no such
number. The count goes by what the load waits for: before its first download there was none, while
it downloads or pauses there was one more than the retries that were used, and after that the
number stays. That nobody else downloads the language meanwhile follows from what is true at any
moment: a load with a download under way that was not aborted has the entry of its language, and
there is only one.
-/

namespace SymbolPaths

/-! ### How many downloads a load begins -/

namespace LoadWait

/-- How many downloads a load has begun that waits, if there are limits to trying
    again. -/
def HasBegun (policy : RetryPolicy) (wait : LoadWait) (downloads : Nat) : Prop :=
  match wait with
  | engine | probe _ | read _ => downloads = 0
  | fetch _ (.calling retry) => downloads = retry.toNat + 1 ∧ retry ≤ policy.retries
  | fetch _ (.waiting retry) => downloads = retry.toNat + 1 ∧ retry < policy.retries
  | store _ _ _ => downloads ≤ policy.retries.toNat + 1

variable {policy : RetryPolicy} {wait : LoadWait} {downloads : Nat}

/-- A load begins no more downloads than there are retries, and one. -/
theorem HasBegun.le (h : wait.HasBegun policy downloads) :
    downloads ≤ policy.retries.toNat + 1 := by
  cases wait with
  | engine => exact h ▸ Nat.zero_le _
  | probe => exact h ▸ Nat.zero_le _
  | read => exact h ▸ Nat.zero_le _
  | fetch flight phase =>
    cases phase with
    | calling retry => exact h.1 ▸ Nat.succ_le_succ (UInt32.le_iff_toNat_le.1 h.2)
    | waiting retry => exact h.1 ▸ Nat.succ_le_succ (UInt32.le_iff_toNat_le.1 (UInt32.le_of_lt h.2))
  | store => exact h

end LoadWait

namespace Loader

variable {env : Loader} {s s' : LoaderState} {language : Language} {reply : LoadReply}
  {wait after : LoadWait} {load : Load} {flight downloads : Nat} {lang : String}

/-- The count goes on with what a load waits for. -/
theorem Follows.hasBegun (h : Follows env s reply flight wait after)
    (hbegun : wait.HasBegun env.policy downloads) :
    after.HasBegun env.policy
      (downloads + if after.isDownloading && !wait.isDownloading then 1 else 0) := by
  cases h with
  | reads => exact hbegun
  | begins hwait =>
    rcases hwait with rfl | rfl <;> exact ⟨congrArg (· + 1) hbegun, UInt32.zero_le⟩
  | pauses hlt => exact ⟨hbegun.1, hlt⟩
  | @repeats retry =>
    obtain ⟨hcount, hlt⟩ := hbegun
    -- The number of retries is below a limit of 32 bits, so it does not wrap around.
    have hnext : (retry + 1).toNat = retry.toNat + 1 := by
      rw [UInt32.toNat_add]
      have := UInt32.lt_iff_toNat_lt.1 hlt
      have := env.policy.retries.toNat_lt
      exact Nat.mod_eq_of_lt (by simp; omega)
    refine ⟨?_, ?_⟩
    · simp only [hnext, hcount]
      rfl
    · rw [UInt32.le_iff_toNat_le, hnext]
      exact UInt32.lt_iff_toNat_lt.1 hlt
  | stores => exact (LoadWait.HasBegun.le hbegun :)
  | writes => exact hbegun

/-- A load that begins a download was just entered in the list, or was entered before and
    not cancelled. -/
theorem Turn.of_begins (h : Turn env s language reply wait s' load)
    (hload : load.isDownloading) (hwait : wait.isDownloading = false) :
    s'.loaded = s.loaded ∧
      (s.loaded.get? language.name = none ∧ s.isAcquiring language.name = false ∨
        ∃ f, wait.flight? = some f ∧ s.isCancelled f = false) := by
  cases h with
  | stays => cases hwait.symm.trans hload
  | enters _ hloaded hfree => exact ⟨rfl, .inl ⟨hloaded, hfree⟩⟩
  | goesOn hf hfollows =>
    refine ⟨rfl, .inr ⟨_, hf, ?_⟩⟩
    cases hfollows with
    | begins _ huncancelled => exact huncancelled
    | repeats huncancelled => exact huncancelled
    | _ => cases hload
  | _ => cases hload

/-- A turn drops no grammar. -/
theorem Turn.has (h : Turn env s language reply wait s' load) (hhas : s.has lang) :
    s'.has lang := by
  cases h with
  | breaksOff => rwa [LoaderState.has, LoaderState.loaded_release]
  | succeeds =>
    rw [LoaderState.has, LoaderState.loaded_release, Table.contains, Table.get?_put]
    split
    · rfl
    · exact hhas
  | _ => exact hhas

end Loader

namespace Caller

/-- What the downloads that the load of a caller has begun come to. -/
structure IsFrugal (policy : RetryPolicy) (c : Caller) : Prop where
  /-- Before it is entered in the list it has begun none. -/
  unentered : c.flight = none → c.downloads = 0
  /-- As long as it waits, what it waits for tells how many. -/
  begun : ∀ language wait, c.load = some (.waiting language wait) →
    wait.HasBegun policy c.downloads
  /-- There are never more than the retries, and one. -/
  le : c.downloads ≤ policy.retries.toNat + 1

variable {policy : RetryPolicy} {c : Caller} {language : Language} {wait : LoadWait}

/-- Who has just called has begun no download. -/
theorem isFrugal_start (s : LoaderState) (lang : String) : (start s lang).IsFrugal policy where
  unentered _ := rfl
  begun language wait h := by
    obtain ⟨_, rfl⟩ := Loader.eq_engine_of_begin (Option.some.inj h)
    exact rfl
  le := Nat.zero_le _

/-- A download is counted when a load comes to it that was not downloading before. -/
theorem downloads_carryOn (hload : c.load = some (.waiting language wait)) (load : Load) :
    (c.carryOn load).downloads =
      c.downloads + if load.isDownloading && !wait.isDownloading then 1 else 0 := by
  rw [carryOn, isDownloading, hload]
  rfl

/-- A turn begins a download only if there are retries left for it. -/
theorem IsFrugal.carryOn {env : Loader} {s s' : LoaderState} {reply : LoadReply} {load : Load}
    (h : c.IsFrugal env.policy) (hload : c.load = some (.waiting language wait))
    (hflight : c.flight = wait.flight?) (hturn : Loader.Turn env s language reply wait s' load) :
    (c.carryOn load).IsFrugal env.policy := by
  -- The count goes up when a download begins, which is when its retries start from none.
  have hbegun : ∀ language' wait', load = .waiting language' wait' →
      wait'.HasBegun env.policy (c.carryOn load).downloads := by
    rintro language' wait' rfl
    rw [downloads_carryOn hload]
    have hbegun := h.begun language wait hload
    cases hturn with
    | stays => simpa [Load.isDownloading] using hbegun
    | enters _ _ _ hwait =>
      have hzero : c.downloads = 0 := hbegun
      rw [hzero]
      rcases hwait with rfl | rfl
      · rfl
      · exact ⟨rfl, UInt32.zero_le⟩
    | goesOn _ hfollows => exact hfollows.hasBegun hbegun
  constructor
  case unentered =>
    intro hnone
    obtain ⟨hload', hnone⟩ := Option.or_eq_none_iff.1 hnone
    rw [downloads_carryOn hload, h.unentered hnone, if_neg]
    cases load with
    | finished => exact nofun
    | waiting language' wait' =>
      rw [Bool.and_eq_true]
      rintro ⟨hdownloading, _⟩
      obtain ⟨f, hf⟩ := LoadWait.flight?_of_isDownloading hdownloading
      cases hload'.symm.trans ((Load.flight?_waiting ..).trans hf)
  case begun => exact fun language' wait' h => hbegun language' wait' (Option.some.inj h)
  case le =>
    cases load with
    | waiting language' wait' => exact (hbegun language' wait' rfl).le
    | finished => exact h.le

end Caller

namespace Traffic

variable {env : Loader} {w w' : Traffic} {lang : String} {number : Nat} {c c' : Caller} {e : Event}

/-- No event makes a caller begin more downloads than it may: only the load that is resumed can
    begin any. -/
theorem isFrugal_step (hsound : Sound w.state w.callers) (e : Event)
    (h : ∀ (i : Nat) (c : Caller), w.callers[i]? = some c → c.IsFrugal env.policy) (number : Nat)
    (c' : Caller) (hc' : (w.step env e).callers[number]? = some c') : c'.IsFrugal env.policy := by
  cases hc : w.callers[number]? with
  | none =>
    obtain ⟨lang, rfl⟩ := start_of_step hsound.fresh hc hc'
    exact Caller.isFrugal_start ..
  | some c =>
    have hfrugal := h number c hc
    obtain ⟨d, hd, hcomes⟩ := comes_step hsound.fresh e hc
    obtain rfl := Option.some.inj (hd.symm.trans hc')
    cases hcomes with
    | stays => exact hfrugal
    | turns hload hturn => exact hfrugal.carryOn hload (hsound.own hc hload).2 hturn
    | leaves => exact ⟨hfrugal.unentered, nofun, hfrugal.le⟩
    | aborts =>
      refine ⟨?_, ?_, ?_⟩
      · rw [Caller.flight_abort, Caller.downloads_abort]
        exact hfrugal.unentered
      · rw [Caller.load_abort, Caller.downloads_abort]
        exact hfrugal.begun
      · rw [Caller.downloads_abort]
        exact hfrugal.le

/-- In every state that events lead to no caller has begun more than it may. -/
theorem isFrugal_of_reachable (h : Reachable env w) (hc : w.callers[number]? = some c) :
    c.IsFrugal env.policy :=
  (of_leads (P := fun w => ∀ (i : Nat) (c : Caller), w.callers[i]? = some c → c.IsFrugal env.policy)
    .initial (by simp [initial]) (fun _ e hsound h _ => isFrugal_step hsound e h) h).2 number c hc

/-! ### When downloads are begun -/

/-- Whether the load of a caller begins a download at an event. -/
def BeginsDownload (env : Loader) (number : Nat) (w : Traffic) (e : Event) : Prop :=
  ∃ (c c' : Caller), w.callers[number]? = some c ∧ (w.step env e).callers[number]? = some c' ∧
    c.downloads < c'.downloads

/-- Whoever begins a download finds the grammar missing, and no entry of the language but
    maybe its own. -/
theorem of_beginsDownload (hsound : Sound w.state w.callers) (hc : w.callers[number]? = some c)
    (h : BeginsDownload env number w e) :
    w.state.loaded.get? c.lang = none ∧ (w.step env e).state.loaded.get? c.lang = none ∧
      ∀ i d f, w.callers[i]? = some d → d.Holds c.lang f → i = number := by
  obtain ⟨_, c', hc', hstep, hlt⟩ := h
  obtain rfl := Option.some.inj (hc.symm.trans hc')
  obtain ⟨d, hd, hcomes⟩ := comes_step hsound.fresh e hc
  obtain rfl := Option.some.inj (hd.symm.trans hstep)
  -- Of the steps only a turn begins a download.
  cases hcomes with
  | stays => exact absurd hlt (Nat.lt_irrefl _)
  | leaves => exact absurd hlt (Nat.lt_irrefl _)
  | aborts =>
    rw [Caller.downloads_abort] at hlt
    exact absurd hlt (Nat.lt_irrefl _)
  | @turns _ language wait load hload hturn =>
    obtain ⟨hlang, hflight⟩ := hsound.own hc hload
    rw [Caller.downloads_carryOn hload] at hlt
    have hbegins : load.isDownloading = true ∧ wait.isDownloading = false := by
      split at hlt
      · next h => simpa using h
      · exact absurd hlt (Nat.lt_irrefl _)
    obtain ⟨hloaded, hturn⟩ := hturn.of_begins hbegins.1 hbegins.2
    rw [hloaded, ← hlang]
    -- The caller has just entered, when nobody holds the language, or it held the language before.
    rcases hturn with ⟨hnone, hfree⟩ | ⟨f, hf, huncancelled⟩
    · refine ⟨hnone, hnone, fun i d f hd hholds => ?_⟩
      have hentry := hsound.inFlight_iff.2 ⟨i, d, hd, hholds⟩
      rw [(LoaderState.isAcquiring_eq_false ..).1 hfree] at hentry
      cases hentry
    · have hcholds := hsound.holds hc hload hf huncancelled
      have hentry := hsound.inFlight_iff.2 ⟨number, c, hc, hcholds⟩
      exact ⟨hsound.apart hentry, hsound.apart hentry,
        fun i d g hd hholds => hsound.eq_of_holds hd hc hholds hcholds⟩

/-- A load with a download under way that was not aborted has the entry of its language. -/
theorem holds_of_isDownloading (hsound : Sound w.state w.callers)
    (hc : w.callers[number]? = some c) (hdownloading : c.isDownloading)
    (haborted : c.aborted = false) : ∃ f, c.Holds c.lang f := by
  obtain ⟨load, hload, hdownloading⟩ := (Option.any_eq_true ..).1 hdownloading
  cases load with
  | finished => cases hdownloading
  | waiting language wait =>
    obtain ⟨f, hf⟩ := LoadWait.flight?_of_isDownloading hdownloading
    exact ⟨f, Caller.isRunning_of_load hload, haborted, rfl, (hsound.own hc hload).2.trans hf⟩

/-- A load that is over stays as it is. -/
theorem callers_step_of_result? (hsound : Sound w.state w.callers)
    {result : Except AcquireError GrammarHandle} (hc : w.callers[number]? = some c)
    (hresult : c.result? = some result) (e : Event) :
    (w.step env e).callers[number]? = some c := by
  have hwaiting {language : Language} {wait : LoadWait}
      (hload : c.load = some (.waiting language wait)) : False := by
    rw [Caller.result?, hload] at hresult
    cases hresult
  obtain ⟨c', hc', hcomes⟩ := comes_step hsound.fresh e hc
  cases hcomes with
  | stays => exact hc'
  | turns hload => exact (hwaiting hload).elim
  | leaves hload => exact (hwaiting hload).elim
  | aborts =>
    rw [hc', Caller.abort, if_neg]
    rintro ⟨_, hrunning, _⟩
    obtain ⟨_, _, hload⟩ := Caller.exists_of_isRunning hrunning
    exact hwaiting hload

/-- A load that ends was turned away or answered as it started, or ends at a turn. -/
theorem turn_of_result? (hsound : Sound w.state w.callers)
    {result : Except AcquireError GrammarHandle} (hbefore : w.result? number = none)
    (hc : (w.step env e).callers[number]? = some c) (hresult : c.result? = some result) :
    c.flight = none ∨ ∃ d reply language wait, w.callers[number]? = some d ∧
      d.load = some (.waiting language wait) ∧ e = .resume number reply ∧
      Loader.Turn env w.state language reply wait (w.step env e).state (.finished result) ∧
      c = d.carryOn (.finished result) := by
  cases hd : w.callers[number]? with
  | none =>
    obtain ⟨lang, rfl⟩ := start_of_step hsound.fresh hd hc
    exact .inl rfl
  | some d =>
    have hnone : d.result? = none := by rwa [Traffic.result?, hd] at hbefore
    obtain ⟨c', hc', hcomes⟩ := comes_step hsound.fresh e hd
    obtain rfl := Option.some.inj (hc'.symm.trans hc)
    cases hcomes with
    | stays => cases hnone.symm.trans hresult
    | leaves => cases hresult
    | aborts =>
      rw [Caller.result?_abort] at hresult
      cases hnone.symm.trans hresult
    | turns hload hturn =>
      obtain rfl := Load.eq_finished_of_result? hresult
      exact .inr ⟨d, _, _, _, rfl, hload, rfl, hturn, rfl⟩

/-- Whether the load of a caller has the entry of its language, or the grammar is there, or
    the load has failed. -/
def IsServed (lang : String) (number : Nat) (w : Traffic) : Prop :=
  (∃ (c : Caller) (f : Nat), w.callers[number]? = some c ∧ c.Holds lang f) ∨ w.state.has lang ∨
    ∃ e, w.result? number = some (.error e)

/-- A grammar stays until its language is aborted. -/
theorem has_step (hsound : Sound w.state w.callers) (he : e ≠ .abort lang)
    (hhas : w.state.has lang) : (w.step env e).state.has lang := by
  have hhappens := happens_step env hsound.fresh e
  generalize (w.step env e).state = s', (w.step env e).callers = callers' at hhappens ⊢
  cases hhappens with
  | nothing => exact hhas
  | calls => exact hhas
  | turns _ _ hturn => exact hturn.has hhas
  | leaves => rwa [LoaderState.has, Loader.loaded_drop]
  | aborts =>
    rw [LoaderState.has, Table.contains, LoaderState.get?_loaded_abort, if_neg]
    · exact hhas
    · rintro rfl
      exact he rfl

/-- A caller who was served stays so until the language is aborted or the load given up. -/
theorem isServed_step (hsound : Sound w.state w.callers) (h : IsServed lang number w)
    (hkeep : e ≠ .abort lang ∧ e ≠ .giveUp number) : IsServed lang number (w.step env e) := by
  rcases h with ⟨c, f, hc, hholds⟩ | hhas | ⟨err, hresult⟩
  · -- Only its own turns can take the entry away, and they put something in its place.
    obtain ⟨c', hc', hcomes⟩ := comes_step hsound.fresh e hc
    obtain ⟨hrunning, haborted, hlang, hflight⟩ := hholds
    cases hcomes with
    | stays => exact .inl ⟨c, f, hc', hrunning, haborted, hlang, hflight⟩
    | leaves => exact absurd rfl hkeep.2
    | @aborts other =>
      refine .inl ⟨_, f, hc', ?_, ?_, ?_, ?_⟩
      · rwa [Caller.isRunning_abort]
      · have hother : c.lang ≠ other := fun h => hkeep.1 (by rw [← h, hlang])
        simp [Caller.aborted_abort, haborted, hother]
      · rwa [Caller.lang_abort]
      · rwa [Caller.flight_abort]
    | @turns reply language wait load hload hturn =>
      generalize hs : (w.step env (.resume number reply)).state = s' at hturn
      obtain ⟨hcl, hcf⟩ := hsound.own hc hload
      have hwait : wait.flight? = some f := hcf.symm.trans hflight
      have hwaits {after : LoadWait} (hafter : after.flight? = wait.flight?) :
          (c.carryOn (.waiting language after)).Holds lang f :=
        ⟨rfl, haborted, hlang, (Caller.flight_carryOn_waiting (.inr (hcf.trans hafter.symm))).trans
          (hafter.trans hwait)⟩
      cases hturn with
      | stays => exact .inl ⟨_, f, hc', hwaits rfl⟩
      | goesOn hf hfollows => exact .inl ⟨_, f, hc', hwaits (hfollows.flight?.trans hf.symm)⟩
      | breaksOff => exact .inr (.inr ⟨_, by rw [Traffic.result?, hc']; rfl⟩)
      | succeeds =>
        refine .inr (.inl ?_)
        rw [hs, LoaderState.has, LoaderState.loaded_release, Table.contains, Table.get?_put,
          if_pos (hlang.symm.trans hcl.symm)]
        rfl
      | _ => cases hwait
  · exact .inr (.inl (has_step hsound hkeep.1 hhas))
  · obtain ⟨c, hc, hcr⟩ := Option.bind_eq_some_iff.1 hresult
    refine .inr (.inr ⟨err, ?_⟩)
    rw [Traffic.result?, callers_step_of_result? hsound hc hcr e]
    exact hcr

/-- When downloads are begun, and how many. -/
structure IsSparing (env : Loader) (w : Traffic) : Prop where
  /-- Of the loads of a language that were not aborted, one at most has a download under
      way. -/
  one_at_a_time : ∀ (i j : Nat) (c d : Caller), w.callers[i]? = some c →
    w.callers[j]? = some d → c.lang = d.lang → c.isDownloading → d.isDownloading →
    c.aborted = false → d.aborted = false → i = j
  /-- What is there is not downloaded. -/
  missing : ∀ (number : Nat) (c : Caller) (e : Event), w.callers[number]? = some c →
    BeginsDownload env number w e →
    w.state.has c.lang = false ∧ (w.step env e).state.has c.lang = false
  /-- A load that is not entered in the list has begun no download. -/
  unentered : ∀ (number : Nat) (c : Caller), w.callers[number]? = some c → c.flight = none →
    c.downloads = 0
  /-- A load that ends with a grammar that was there is never entered. -/
  from_memory : ∀ (number : Nat) (c : Caller) (e : Event) (handle : GrammarHandle),
    w.result? number = none → (w.step env e).callers[number]? = some c →
    c.result? = some (.ok handle) → w.state.has c.lang → c.flight = none ∧ c.downloads = 0
  /-- Nor is one that is turned away. -/
  rejected : ∀ (number : Nat) (c : Caller) (e : Event) (lang : String),
    w.result? number = none → (w.step env e).callers[number]? = some c →
    c.result? = some (.error (.inProgress lang)) →
    (∀ reply, e = .resume number reply → reply.error? ≠ some (.inProgress lang)) →
    (∀ payload, env.make c.lang payload ≠ .error (.inProgress lang)) →
    c.flight = none ∧ c.downloads = 0
  /-- A load that is over begins no download. -/
  ended : ∀ (number : Nat) (c : Caller) (result : Except AcquireError GrammarHandle) (e : Event),
    w.callers[number]? = some c → c.result? = some result →
    (w.step env e).callers[number]? = some c
  /-- A load begins one download more than it may try again, at most. -/
  bounded : ∀ (number : Nat) (c : Caller), w.callers[number]? = some c →
    c.downloads ≤ env.policy.retries.toNat + 1
  /-- Once a load has the entry of its language, no other load of the language begins a
      download, while the load is under way and when it has ended with a grammar, unless
      the language is aborted or the load is given up. -/
  shared : ∀ (number : Nat) (c : Caller) (lang : String) (f : Nat),
    w.callers[number]? = some c → c.Holds lang f → ∀ w',
    Leads env (fun _ e => e ≠ .abort lang ∧ e ≠ .giveUp number) w w' →
    (∀ e, w'.result? number ≠ some (.error e)) →
    ∀ (other : Nat) (d : Caller) (e : Event), other ≠ number → w'.callers[other]? = some d →
      d.lang = lang → ¬BeginsDownload env other w' e

/-- In every state that events lead to no download was begun in vain: neither for a grammar that was
    there, nor beside another load, nor more often than allowed. -/
theorem isSparing_of_reachable (h : Reachable env w) : IsSparing env w := by
  have hsound := sound_of_reachable h
  -- What was never entered has begun no download, also after an event.
  have hunentered {number : Nat} {c : Caller} {e : Event}
      (hc : (w.step env e).callers[number]? = some c) (hnone : c.flight = none) :
      c.flight = none ∧ c.downloads = 0 :=
    ⟨hnone, (isFrugal_of_reachable (h.tail ⟨e, trivial, rfl⟩) hc).unentered hnone⟩
  constructor
  case one_at_a_time =>
    intro i j c d hc hd hlang hcdownloading hddownloading hca hda
    obtain ⟨f, hcholds⟩ := holds_of_isDownloading hsound hc hcdownloading hca
    obtain ⟨g, hdholds⟩ := holds_of_isDownloading hsound hd hddownloading hda
    exact hsound.eq_of_holds hc hd hcholds (hlang ▸ hdholds)
  case missing =>
    intro number c e hc hbegins
    obtain ⟨hbefore, hafter, _⟩ := of_beginsDownload hsound hc hbegins
    simp [LoaderState.has, Table.contains, hbefore, hafter]
  case unentered => exact fun number c hc => (isFrugal_of_reachable h hc).unentered
  case from_memory =>
    intro number c e handle hbefore hc hresult hhas
    refine hunentered hc ?_
    rcases turn_of_result? hsound hbefore hc hresult with
      hnone | ⟨d, reply, language, wait, hd, hload, rfl, hturn, rfl⟩
    · exact hnone
    · obtain ⟨hlang, hflight⟩ := hsound.own hd hload
      generalize (w.step env (.resume number reply)).state = s' at hturn
      cases hturn with
      | finds => exact (Option.none_or ..).trans hflight
      | succeeds _ hf huncancelled =>
        -- It had the entry of the language, so the grammar was not there before.
        have hentry := hsound.inFlight_iff.2 ⟨number, d, hd, hsound.holds hd hload hf huncancelled⟩
        have hnone := hsound.apart hentry
        simp [LoaderState.has, Table.contains, ← hlang, hnone] at hhas
  case rejected =>
    intro number c e lang hbefore hc hresult hreply hmake
    refine hunentered hc ?_
    rcases turn_of_result? hsound hbefore hc hresult with
      hnone | ⟨d, reply, language, wait, hd, hload, rfl, hturn, rfl⟩
    · exact hnone
    · obtain ⟨hlang, hflight⟩ := hsound.own hd hload
      obtain ⟨_, rfl, _⟩ := hturn.of_inProgress (hreply reply rfl) (hlang ▸ hmake)
      exact (Option.none_or ..).trans hflight
  case ended =>
    exact fun number c result e hc hresult => callers_step_of_result? hsound hc hresult e
  case bounded => exact fun number c hc => (isFrugal_of_reachable h hc).le
  case shared =>
    intro number c lang f hc hholds w' hleads hfailed other d e hother hd hlang hbegins
    obtain ⟨hsound', hserved⟩ := of_leads hsound (.inl ⟨c, f, hc, hholds⟩ : IsServed lang number w)
      (fun _ _ hsound hserved hkeep => isServed_step hsound hserved hkeep) hleads
    obtain ⟨hmissing, _, halone⟩ := of_beginsDownload hsound' hd hbegins
    rcases hserved with ⟨c', g, hc', hholds'⟩ | hhas | ⟨err, hresult⟩
    · exact hother (halone number c' g hc' (hlang ▸ hholds')).symm
    · simp [LoaderState.has, Table.contains, ← hlang, hmissing] at hhas
    · exact hfailed err hresult

/-- Of two loads that leave the engine together, the one downloads twice, since the first
    download fails, and the other not at all. -/
theorem isSparing_raced :
    let env : Loader :=
      { source := .standard, cache := none, policy := ⟨1, .zero⟩, make := fun lang _ => .ok ⟨lang⟩ }
    let w := after env [.load "rust", .load "rust", .resume 1 (.engine (.ok ())),
      .resume 0 (.engine (.ok ())), .resume 1 (.fetch (.returned (.error (.network "" "")))),
      .resume 1 (.fetch .elapsed), .resume 1 (.fetch (.returned (.ok [])))]
    Reachable env w ∧ IsSparing env w ∧ w.state.has "rust" ∧ w.callers.map (·.downloads) = [0, 2] :=
  ⟨reachable_after _ _, isSparing_of_reachable (reachable_after _ _), by decide, by decide⟩

end Traffic

end SymbolPaths
