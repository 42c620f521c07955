import SymbolPaths.Proofs.Grammar.Parts

/-!
# Payloads that cannot be stored

A payload that was downloaded is stored before it is made into a grammar. Whether that works is
of no consequence for the load: it goes on with the payload in either case. Only the loader
remembers for which languages it did not, and does not try again for them.

* `Traffic.skipPersist_step`: which languages the loader remembers;
* `Traffic.exists_stores_of_step`: who begins to store a payload;
* `Traffic.after_eq_withWrite`: a load that stores its payload leaves nothing behind until it is
  done with it;
* `Traffic.isUndisturbed_after`: what a payload that cannot be stored does to its load, to later
  loads and to other languages.

Most of this is about telling two runs apart that differ in the disk only. While a load stores its
payload it listens to nothing but the disk, and nobody else can see how far it has come. So a
state in which it has come further, or is done, is the state in which it begins to store, changed
in one place (`Traffic.withWrite`), and that change can be moved past all other events. Two runs
in which the storing ends differently thus have the same state behind them, but for the list of
the languages that are not stored any more.
-/

namespace SymbolPaths

namespace LoadWait

/-- Whether a load learns from a reply that its payload could not be stored. -/
def failsToStore : LoadWait → LoadReply → Bool
  | store _ _ write, .disk result => match write.next result with
    | .done (.error _) => true
    | _ => false
  | _, _ => false

end LoadWait

/-- Only a load that stores something fails to store it, at the reply that ends the storing. -/
theorem LoadWait.exists_of_failsToStore {wait : LoadWait} {reply : LoadReply}
    (h : wait.failsToStore reply) : ∃ flight payload write result cause,
      wait = .store flight payload write ∧ reply = .disk result ∧
        write.next result = .done (.error cause) := by
  unfold failsToStore at h
  split at h
  · next flight payload write result =>
    split at h
    · next cause hnext => exact ⟨flight, payload, write, result, cause, rfl, rfl, hnext⟩
    · cases h
  · cases h

/-- Whether the disk replies to a load at an event. -/
def Event.isReplyOfDisk (number : Nat) : Event → Bool
  | .resume n (.disk _) => n = number
  | _ => false

/-- A reply of the disk resumes the load that waits for it. -/
theorem Event.exists_of_isReplyOfDisk {number : Nat} {e : Event} (h : e.isReplyOfDisk number) :
    ∃ result, e = .resume number (.disk result) := by
  unfold isReplyOfDisk at h
  split at h
  · next n result => exact ⟨result, by rw [of_decide_eq_true h]⟩
  · cases h

/-- The events at which the disk does not reply to a load. -/
def Event.apart (number : Nat) (events : List Event) : List Event :=
  events.filter (!·.isReplyOfDisk number)

/-- All events but the replies of the disk are kept, one after another. -/
theorem Event.apart_append_singleton (number : Nat) (events : List Event) (e : Event) :
    apart number (events ++ [e]) =
      if e.isReplyOfDisk number then apart number events else apart number events ++ [e] := by
  rw [apart, List.filter_append]
  cases h : e.isReplyOfDisk number <;> simp [apart, h]

namespace Loader

variable {env : Loader} {s : LoaderState} {language language' : Language} {reply : LoadReply}
  {wait : LoadWait} {flight flight' : Nat} {payload payload' : Bytes} {write : CacheWrite}

/-! ### A load -/

/-- A load that leaves the list changes nothing of what is not stored any more. -/
theorem skipPersist_release (s : LoaderState) (lang : String) (flight : Nat) :
    (s.release lang flight).skipPersist = s.skipPersist := by
  rw [LoaderState.release]
  split <;> rfl

/-- What a load makes of its payload does not depend on what the loader does not store. -/
theorem commit_skip (env : Loader) (s : LoaderState) (language : Language) (flight : Nat)
    (payload : Bytes) (skip : List String) :
    commit env { s with skipPersist := skip } language flight payload =
      ({ (commit env s language flight payload).1 with skipPersist := skip },
        (commit env s language flight payload).2) := by
  have hconclude (s : LoaderState) (result : Except AcquireError GrammarHandle) :
      conclude { s with skipPersist := skip } language.name flight result =
        ({ (conclude s language.name flight result).1 with skipPersist := skip },
          (conclude s language.name flight result).2) := by
    simp only [conclude, LoaderState.release]
    split <;> rfl
  have hcancelled : ({ s with skipPersist := skip } : LoaderState).isCancelled flight =
      s.isCancelled flight := rfl
  simp only [commit, hcancelled]
  split
  · exact hconclude s _
  · split
    · exact hconclude s _
    · next grammar _ =>
      exact hconclude { s with loaded := s.loaded.put language.name ⟨language, grammar⟩ } _

/-- Making a grammar changes nothing of it either. -/
theorem skipPersist_commit (env : Loader) (s : LoaderState) (language : Language) (flight : Nat)
    (payload : Bytes) : (commit env s language flight payload).1.skipPersist = s.skipPersist := by
  have h := commit_skip env s language flight payload s.skipPersist
  exact (congrArg (·.1.skipPersist) h :)

/-- A download changes nothing of it either. -/
theorem skipPersist_download (env : Loader) (s : LoaderState) (language : Language) (flight : Nat)
    (progress : Retry.Progress AcquireError Bytes) :
    (download env s language flight progress).1.skipPersist = s.skipPersist := by
  cases progress with
  | on phase => rfl
  | done result =>
    cases result with
    | aborted => exact skipPersist_release ..
    | failed e => exact skipPersist_release ..
    | ok payload =>
      simp only [download, persist]
      split
      · exact skipPersist_commit ..
      · rfl

/-- The loader remembers the language of a payload that could not be stored, and no other. -/
theorem skipPersist_resume (env : Loader) (s : LoaderState) (language : Language)
    (wait : LoadWait) (reply : LoadReply) :
    (resume env s (.waiting language wait) reply).1.skipPersist =
      if wait.failsToStore reply then language.name :: s.skipPersist else s.skipPersist := by
  -- Each branch ends in `download` or `commit`, which leave the list alone; only a write that ends
  -- in an error puts a name on it.
  cases wait with
  | engine =>
    cases reply with
    | engine result =>
      cases result with
      | error e => rfl
      | ok =>
        simp only [resume, enter]
        split
        · rfl
        · split
          · rfl
          · split
            · rfl
            · exact skipPersist_download ..
    | _ => rfl
  | probe flight =>
    cases reply with
    | probed present =>
      cases present with
      | true => rfl
      | false => exact skipPersist_download ..
    | _ => rfl
  | read flight =>
    cases reply with
    | read result =>
      cases result with
      | ok payload => exact skipPersist_commit ..
      | error e => exact skipPersist_download ..
    | _ => rfl
  | fetch flight phase =>
    cases reply with
    | fetch signal => exact skipPersist_download ..
    | _ => rfl
  | store flight payload write =>
    cases reply with
    | disk result =>
      cases hnext : write.next result with
      | done outcome =>
        cases outcome with
        | ok =>
          simp only [resume, LoadWait.failsToStore, hnext]
          exact skipPersist_commit ..
        | error e =>
          simp only [resume, LoadWait.failsToStore, hnext]
          exact skipPersist_commit ..
      | _ =>
        simp only [resume, LoadWait.failsToStore, hnext]
        rfl
    | _ => rfl

/-- With a payload in hand a load is over. -/
theorem exists_commit_eq (env : Loader) (s : LoaderState) (language : Language) (flight : Nat)
    (payload : Bytes) : ∃ result, (commit env s language flight payload).2 = .finished result := by
  have hfinished : (commit env s language flight payload).2.isFinished := isFinished_commit
  cases hload : (commit env s language flight payload).2 with
  | waiting language wait =>
    rw [hload] at hfinished
    cases hfinished
  | finished result => exact ⟨result, rfl⟩

/-- A load begins to store only what is still to be stored for its language. -/
theorem not_contains_of_download {progress : Retry.Progress AcquireError Bytes}
    (h : (download env s language flight progress).2 =
      .waiting language' (.store flight' payload write)) :
    language' = language ∧ s.skipPersist.contains language.name = false := by
  cases progress with
  | on phase => cases h
  | done result =>
    cases result with
    | aborted => cases h
    | failed e => cases h
    | ok payload' =>
      simp only [download, persist] at h
      split at h
      · obtain ⟨result, hresult⟩ := exists_commit_eq env s language flight payload'
        cases h.symm.trans hresult
      · next hskip =>
        cases h
        simp only [Bool.or_eq_true, not_or, Bool.not_eq_true] at hskip
        exact ⟨rfl, hskip.2⟩

/-- A load that stores its payload was storing it before, or the loader does not remember its
    language. -/
theorem stores_of_resume (h : (resume env s (.waiting language wait) reply).2 =
      .waiting language' (.store flight payload write)) :
    language' = language ∧ ((∃ before, wait = .store flight payload before) ∨
      s.skipPersist.contains language.name = false) := by
  -- A load begins to write through `download` only, which asks first whether the language is
  -- skipped; storing a grammar ends a load.
  have hdownload {s' : LoaderState} (hs' : s'.skipPersist = s.skipPersist) {flight' : Nat}
      {progress : Retry.Progress AcquireError Bytes}
      (h : (download env s' language flight' progress).2 =
        .waiting language' (.store flight payload write)) :
      language' = language ∧ ((∃ before, wait = .store flight payload before) ∨
        s.skipPersist.contains language.name = false) :=
    ⟨(not_contains_of_download h).1, .inr (hs' ▸ (not_contains_of_download h).2)⟩
  have hcommit {s : LoaderState} {flight' : Nat} {payload' : Bytes}
      (h : (commit env s language flight' payload').2 =
        .waiting language' (.store flight payload write)) : False := by
    obtain ⟨result, hresult⟩ := exists_commit_eq env s language flight' payload'
    cases h.symm.trans hresult
  cases wait with
  | engine =>
    cases reply with
    | engine result =>
      cases result with
      | error e => cases h
      | ok =>
        simp only [resume, enter] at h
        split at h
        · cases h
        · split at h
          · cases h
          · split at h
            · cases h
            · exact hdownload (by rfl) h
    | _ => cases h
  | probe flight' =>
    cases reply with
    | probed present =>
      cases present with
      | true => cases h
      | false => exact hdownload rfl h
    | _ => cases h
  | read flight' =>
    cases reply with
    | read result =>
      cases result with
      | ok payload' => exact (hcommit h).elim
      | error e => exact hdownload rfl h
    | _ => cases h
  | fetch flight' phase =>
    cases reply with
    | fetch signal => exact hdownload rfl h
    | _ => cases h
  | store flight' payload' before =>
    cases reply with
    | disk result =>
      simp only [resume] at h
      split at h
      · exact (hcommit h).elim
      · exact (hcommit h).elim
      · cases h
        exact ⟨rfl, .inl ⟨before, rfl⟩⟩
    | _ =>
      cases h
      exact ⟨rfl, .inl ⟨_, rfl⟩⟩

/-- A load that is done with storing its payload goes on with it, however that ended. -/
theorem resume_done (env : Loader) (s : LoaderState) (language : Language) (flight : Nat)
    (payload : Bytes) {result : Except IoError Nat} {outcome : Except IoError Unit}
    (h : write.next result = .done outcome) :
    ∃ skip, resume env s (.waiting language (.store flight payload write)) (.disk result) =
      ({ (commit env s language flight payload).1 with skipPersist := skip },
        (commit env s language flight payload).2) := by
  cases outcome with
  | ok =>
    refine ⟨s.skipPersist, ?_⟩
    rw [← commit_skip]
    simp only [resume, h]
  | error e =>
    refine ⟨language.name :: s.skipPersist, ?_⟩
    rw [← commit_skip]
    simp only [resume, h]

/-- Until then it only goes on to the next operation. -/
theorem resume_next {result : Except IoError Nat}
    (h : ∀ outcome, write.next result ≠ .done outcome) :
    resume env s (.waiting language (.store flight payload write)) (.disk result) =
      (s, .waiting language (.store flight payload (write.next result))) := by
  simp only [resume]
  split
  · next hdone => exact absurd hdone (h _)
  · next hdone => exact absurd hdone (h _)
  · rfl

end Loader

namespace Caller

/-- The caller, if its load stores its payload, when it has come so far with that. -/
def withWrite (write : CacheWrite) (c : Caller) : Caller :=
  match c.load with
  | some (.waiting language (.store flight payload _)) =>
    { c with load := some (.waiting language (.store flight payload write)) }
  | _ => c

variable {c : Caller} {language : Language} {flight : Nat} {payload : Bytes}
  {write write' : CacheWrite}

/-- Of a load that stores something only the next operation is another one. -/
theorem withWrite_of_load
    (h : c.load = some (.waiting language (.store flight payload write'))) :
    c.withWrite write =
      { c with load := some (.waiting language (.store flight payload write)) } := by
  rw [withWrite, h]

/-- Of two such changes only the last one counts. -/
theorem withWrite_withWrite (write write' : CacheWrite) (c : Caller) :
    (c.withWrite write').withWrite write = c.withWrite write := by
  rw [withWrite.eq_1 write' c]
  split
  · next h => rw [withWrite_of_load rfl, withWrite_of_load h]
  · rfl

/-- Such a load is under way, whichever its next operation is. -/
theorem isRunning_withWrite (write : CacheWrite) (c : Caller) :
    (c.withWrite write).isRunning = c.isRunning := by
  rw [withWrite]
  split
  · next h => rw [isRunning, isRunning, h]; rfl
  · rfl

/-- A load may be given up whichever its next operation is. -/
theorem giveUp_withWrite (h : c.load = some (.waiting language (.store flight payload write'))) :
    (c.withWrite write).giveUp = c.giveUp.withWrite write := by
  rw [withWrite_of_load h]
  rfl

/-- A load may be aborted whichever its next operation is. -/
theorem withWrite_abort (h : c.load = some (.waiting language (.store flight payload write')))
    (lang : String) : (c.abort lang).withWrite write = (c.withWrite write).abort lang := by
  rw [withWrite_of_load ((load_abort ..).trans h), withWrite_of_load h, abort, abort]
  simp only [isRunning, h, Option.any_some]
  split
  · next hc => exact (if_pos hc).symm
  · next hc => exact (if_neg hc).symm

/-- A load that stores its payload comes further only in that. -/
theorem carryOn_store (hload : c.load = some (.waiting language (.store flight payload write')))
    (hflight : c.flight = some flight) :
    c.carryOn (.waiting language (.store flight payload write)) = c.withWrite write := by
  rw [withWrite_of_load hload, carryOn, hflight]
  rfl

/-- Once it is over it does not matter how far it had come. -/
theorem carryOn_withWrite (hload : c.load = some (.waiting language (.store flight payload write')))
    (result : Except AcquireError GrammarHandle) :
    (c.withWrite write).carryOn (.finished result) = c.carryOn (.finished result) := by
  rw [withWrite_of_load hload]
  rfl

end Caller

namespace Traffic

variable {env : Loader} {w w' : Traffic} {number : Nat} {c : Caller} {language : Language}
  {flight : Nat} {wait : LoadWait} {payload : Bytes} {write write' : CacheWrite} {e : Event}
  {events : List Event} {lang : String}

/-! ### What the loader remembers -/

/-- Whether a load of a language learns at an event in which way the storing of its payload
    ended. -/
def EndsStoring (lang : String) (number : Nat) (outcome : Except IoError Unit) (w : Traffic)
    (e : Event) : Prop :=
  ∃ result language flight payload write, e = .resume number (.disk result) ∧
    w.load? number = some (.waiting language (.store flight payload write)) ∧
    language.name = lang ∧ write.next result = .done outcome

/-- Whether at an event a payload of a language could not be stored. -/
def FailsToStore (lang : String) (w : Traffic) (e : Event) : Prop :=
  ∃ number cause, EndsStoring lang number (.error cause) w e

/-- The loader remembers the languages whose payloads could not be stored. -/
theorem skipPersist_step (env : Loader) (w : Traffic) (e : Event) (lang : String) :
    (w.step env e).state.skipPersist.contains lang ↔
      w.state.skipPersist.contains lang ∨ FailsToStore lang w e := by
  -- Where no load gets a reply, nothing is remembered.
  have hother (he : ∀ number reply, e ≠ .resume number reply)
      (hsame : (w.step env e).state.skipPersist = w.state.skipPersist) :
      (w.step env e).state.skipPersist.contains lang ↔
        w.state.skipPersist.contains lang ∨ FailsToStore lang w e := by
    rw [hsame, iff_self_or]
    rintro ⟨number, _, _, _, _, _, _, rfl, _⟩
    exact absurd rfl (he number _)
  cases e with
  | load other => exact hother (fun _ _ h => by cases h) rfl
  | preload langs => exact hother (fun _ _ h => by cases h) rfl
  | advance batch => exact hother (fun _ _ h => by cases h) (by rw [step, state_advance])
  | abort other => exact hother (fun _ _ h => by cases h) rfl
  | giveUp number =>
    refine hother (fun _ _ h => by cases h) ?_
    simp only [step, giveUp]
    split
    · next load _ =>
      split
      · rfl
      · cases load with
        | finished result => rfl
        | waiting language wait =>
          rw [Loader.drop_waiting]
          split
          · exact Loader.skipPersist_release ..
          · rfl
    · rfl
  | resume number reply =>
    cases hw : w.load? number with
    | none =>
      have hstep : w.step env (.resume number reply) = w := by simp only [step, resume, hw]
      rw [hstep, iff_self_or]
      rintro ⟨_, _, _, _, _, _, _, ⟨⟩, hload, _⟩
      cases hw.symm.trans hload
    | some load =>
      obtain ⟨c, hc, hload⟩ := load?_eq_some_iff.1 hw
      rw [step_resume hc hload]
      cases load with
      | finished result =>
        simp only [Loader.resume, iff_self_or]
        rintro ⟨_, _, _, _, _, _, _, ⟨⟩, hload', _⟩
        cases hw.symm.trans hload'
      | waiting language wait =>
        -- The load whose turn it is is the only one that can fail to store.
        have hfails : FailsToStore lang w (.resume number reply) ↔
            language.name = lang ∧ wait.failsToStore reply := by
          constructor
          · rintro ⟨_, cause, result, _, _, _, _, ⟨⟩, hload', hlang, hnext⟩
            cases hw.symm.trans hload'
            exact ⟨hlang, by simp only [LoadWait.failsToStore, hnext]⟩
          · rintro ⟨hlang, hfails⟩
            obtain ⟨flight, payload, write, result, cause, rfl, rfl, hnext⟩ :=
              LoadWait.exists_of_failsToStore hfails
            exact ⟨number, cause, result, language, flight, payload, write, rfl, hw, hlang, hnext⟩
        rw [hfails]
        simp only [Loader.skipPersist_resume]
        split
        · next h =>
          rw [List.contains_cons, Bool.or_eq_true, beq_iff_eq, or_comm, and_iff_left h,
            eq_comm (a := lang)]
        · next h => exact (or_iff_left fun hboth => h hboth.2).symm

/-! ### Storing apart from everything else -/

/-- The same when the load of a caller has come so far in storing its payload. -/
def withWrite (number : Nat) (write : CacheWrite) (w : Traffic) : Traffic :=
  { w with callers := w.callers.modify number (Caller.withWrite write) }

/-- Only one caller has another operation next. -/
theorem getElem?_callers_withWrite (w : Traffic) (number : Nat) (write : CacheWrite) (i : Nat) :
    (w.withWrite number write).callers[i]? =
      if i = number then w.callers[i]?.map (Caller.withWrite write) else w.callers[i]? := by
  simp only [withWrite, List.getElem?_modify, eq_comm (a := number)]
  split <;> simp

theorem load?_withWrite_of_ne {i : Nat} (hi : i ≠ number) :
    (w.withWrite number write).load? i = w.load? i := by
  rw [load?, getElem?_callers_withWrite, if_neg hi, load?]

/-- The load of the one caller has the other operation before it. -/
theorem load?_withWrite (write : CacheWrite)
    (h : w.load? number = some (.waiting language (.store flight payload write'))) :
    (w.withWrite number write).load? number =
      some (.waiting language (.store flight payload write)) := by
  obtain ⟨c, hc, hload⟩ := load?_eq_some_iff.1 h
  rw [load?, getElem?_callers_withWrite, if_pos rfl, hc, Option.map_some, Option.bind_some,
    Caller.withWrite_of_load hload]

/-- It is the same to somebody who only asks whether a load is over. -/
theorem any_isFinished_withWrite
    (h : w.load? number = some (.waiting language (.store flight payload write'))) (i : Nat) :
    ((w.withWrite number write).load? i).any Load.isFinished =
      (w.load? i).any Load.isFinished := by
  by_cases hi : i = number
  · subst hi
    rw [load?_withWrite write h, h]
    rfl
  · rw [load?_withWrite_of_ne hi]

theorem withWrite_withWrite (w : Traffic) (number : Nat) (write write' : CacheWrite) :
    (w.withWrite number write').withWrite number write = w.withWrite number write := by
  simp only [withWrite, List.modify_modify_eq]
  congr 2
  exact funext fun c => Caller.withWrite_withWrite ..

/-- What is done to one caller may be told apart from another only there. -/
theorem modify_congr {callers : List Caller} (hc : callers[number]? = some c)
    {f g : Caller → Caller} (h : f c = g c) :
    callers.modify number f = callers.modify number g := by
  refine List.ext_getElem? fun i => ?_
  rw [updates_modify hc f, updates_modify hc g, h]

/-- The operation that comes next already is no change. -/
theorem withWrite_self
    (h : w.load? number = some (.waiting language (.store flight payload write))) :
    w.withWrite number write = w := by
  obtain ⟨c, hc, hload⟩ := load?_eq_some_iff.1 h
  have hsame : c.withWrite write = id c := by rw [Caller.withWrite_of_load hload, ← hload, id]
  rw [withWrite, modify_congr hc hsame, List.modify_id]

/-- What is no reply of the disk to the load is none of an operation. -/
theorem not_disk_of_isReplyOfDisk {reply : LoadReply}
    (h : (Event.resume number reply).isReplyOfDisk number = false) (result : Except IoError Nat) :
    reply ≠ .disk result := by
  rintro rfl
  simp [Event.isReplyOfDisk] at h

/-- A load that stores its payload waits for the disk alone. -/
theorem step_resume_of_stores (hc : w.callers[number]? = some c)
    (hload : c.load = some (.waiting language (.store flight payload write)))
    (hflight : c.flight = some flight) {reply : LoadReply}
    (hreply : ∀ result, reply ≠ .disk result) :
    w.step env (.resume number reply) = w := by
  have hresume : Loader.resume env w.state (.waiting language (.store flight payload write)) reply =
      (w.state, .waiting language (.store flight payload write)) := by
    cases reply with
    | disk result => exact absurd rfl (hreply result)
    | _ => rfl
  rw [step_resume hc hload, hresume, modify_congr hc (Caller.carryOn_store hload hflight)]
  exact withWrite_self (load?_eq_some_iff.2 ⟨c, hc, hload⟩)

/-- How far a load has come in storing its payload makes no difference to anything but the
    disk's next reply to it. -/
theorem step_withWrite (hsound : Sound w.state w.callers)
    (h : w.load? number = some (.waiting language (.store flight payload write')))
    (he : e.isReplyOfDisk number = false) (write : CacheWrite) :
    (w.withWrite number write).step env e = (w.step env e).withWrite number write := by
  obtain ⟨c, hc, hload⟩ := load?_eq_some_iff.1 h
  have hflight : c.flight = some flight := (hsound.own hc hload).2
  have hc' : (w.withWrite number write).callers[number]? = some (c.withWrite write) := by
    rw [getElem?_callers_withWrite, if_pos rfl, hc, Option.map_some]
  have hload' : (c.withWrite write).load =
      some (.waiting language (.store flight payload write)) := by
    rw [Caller.withWrite_of_load hload]
  -- What befalls another caller befalls it just so.
  have hother {n : Nat} (hn : n ≠ number) {d : Caller} (hd : w.callers[n]? = some d) :
      (w.withWrite number write).callers[n]? = some d := by
    rw [getElem?_callers_withWrite, if_neg hn, hd]
  have hcalls (lang : String) :
      (w.withWrite number write).call lang = (w.call lang).withWrite number write := by
    have hlt : number < w.callers.length := (List.getElem?_eq_some_iff.1 hc).1
    simp only [call, withWrite, mk.injEq, and_true, true_and]
    refine List.ext_getElem? fun i => ?_
    grind
  cases e with
  | load lang => exact hcalls lang
  | preload langs => rfl
  | advance batch =>
    have hbatches : (w.withWrite number write).batches = w.batches := rfl
    have hlength : (w.withWrite number write).callers.length = w.callers.length :=
      List.length_modify ..
    simp only [step, advance, any_isFinished_withWrite h, hcalls, hbatches, hlength]
    split
    · split <;> rfl
    · rfl
  | abort lang =>
    simp only [step, abort, withWrite, mk.injEq, and_true, true_and]
    refine List.ext_getElem? fun i => ?_
    by_cases hi : number = i
    · subst hi
      simp [hc, Caller.withWrite_abort hload]
    · simp [hi]
  | giveUp n =>
    by_cases hn : n = number
    · subst hn
      rw [step_giveUp hc hload rfl, step_giveUp hc' hload' rfl]
      simp only [withWrite, List.modify_modify_eq, mk.injEq, and_true]
      exact ⟨rfl, modify_congr hc (Caller.giveUp_withWrite hload)⟩
    · cases hw : w.load? n with
      | none =>
        have hw' : (w.withWrite number write).load? n = none := (load?_withWrite_of_ne hn).trans hw
        simp only [step, giveUp, hw, hw']
      | some load =>
        obtain ⟨d, hd, hd'⟩ := load?_eq_some_iff.1 hw
        cases load with
        | finished result =>
          have hw' : (w.withWrite number write).load? n = some (.finished result) :=
            (load?_withWrite_of_ne hn).trans hw
          simp only [step, giveUp, hw, hw', Load.isFinished, if_true]
        | waiting language wait =>
          rw [step_giveUp hd hd' rfl, step_giveUp (hother hn hd) hd' rfl]
          simp only [withWrite, mk.injEq, and_true, true_and]
          exact List.modify_modify_ne _ _ _ (Ne.symm hn)
  | resume n reply =>
    by_cases hn : n = number
    · -- It heeds no reply but one of the disk, and this is none.
      subst hn
      have hreply : ∀ result, reply ≠ .disk result := not_disk_of_isReplyOfDisk he
      rw [step_resume_of_stores hc hload hflight hreply,
        step_resume_of_stores hc' hload' (by rw [Caller.withWrite_of_load hload, hflight]) hreply]
    · cases hw : w.load? n with
      | none =>
        have hw' : (w.withWrite number write).load? n = none := (load?_withWrite_of_ne hn).trans hw
        simp only [step, resume, hw, hw']
      | some load =>
        obtain ⟨d, hd, hd'⟩ := load?_eq_some_iff.1 hw
        rw [step_resume hd hd', step_resume (hother hn hd) hd']
        simp only [withWrite, mk.injEq, and_true, true_and]
        exact List.modify_modify_ne _ _ _ (Ne.symm hn)

/-- A reply of the disk after which there is more to be stored does nothing else. -/
theorem step_next (env : Loader) (hsound : Sound w.state w.callers)
    (h : w.load? number = some (.waiting language (.store flight payload write)))
    {result : Except IoError Nat} (hnext : ∀ outcome, write.next result ≠ .done outcome) :
    w.step env (.resume number (.disk result)) = w.withWrite number (write.next result) := by
  obtain ⟨c, hc, hload⟩ := load?_eq_some_iff.1 h
  rw [step_resume hc hload, Loader.resume_next hnext, withWrite,
    modify_congr hc (Caller.carryOn_store hload (hsound.own hc hload).2)]

/-- After the last one all is as if there had been nothing to be stored, but for what the loader
    remembers. -/
theorem step_done (env : Loader)
    (h : w.load? number = some (.waiting language (.store flight payload write)))
    (write' : CacheWrite) {result : Except IoError Nat} {outcome : Except IoError Unit}
    (hnext : write'.next result = .done outcome) :
    ∃ skip, (w.withWrite number write').step env (.resume number (.disk result)) =
      { w with
        state := { (Loader.commit env w.state language flight payload).1 with skipPersist := skip }
        callers := w.callers.modify number
          (·.carryOn (Loader.commit env w.state language flight payload).2) } := by
  obtain ⟨c, hc, hload⟩ := load?_eq_some_iff.1 h
  obtain ⟨c', hc', hload'⟩ := load?_eq_some_iff.1 (load?_withWrite write' h)
  obtain ⟨grammar, hgrammar⟩ := Loader.exists_commit_eq env w.state language flight payload
  obtain ⟨skip, hresume⟩ := Loader.resume_done env (w.withWrite number write').state language
    flight payload hnext
  refine ⟨skip, ?_⟩
  rw [step_resume hc' hload', hresume]
  simp only [withWrite, List.modify_modify_eq, mk.injEq, and_true, true_and]
  refine modify_congr hc ?_
  simp only [Function.comp_apply, hgrammar]
  exact Caller.carryOn_withWrite hload grammar

/-- A load that is over or given up stays so. -/
theorem not_isRunning_step (hsound : Sound w.state w.callers) (hc : w.callers[number]? = some c)
    (h : c.isRunning = false) (e : Event) :
    ∃ c', (w.step env e).callers[number]? = some c' ∧ c'.isRunning = false := by
  obtain ⟨c', hc', hcomes⟩ := comes_step hsound.fresh e hc
  refine ⟨c', hc', ?_⟩
  cases hcomes with
  | stays => exact h
  | turns hload _ => exact absurd (Caller.isRunning_of_load hload) (Bool.eq_false_iff.1 h)
  | leaves _ => rfl
  | aborts => rw [Caller.isRunning_abort, h]

/-- A load that stores its payload stays where it is as long as the disk does not reply to it,
    unless it is given up. -/
theorem load?_step_of_stores (hsound : Sound w.state w.callers)
    (h : w.load? number = some (.waiting language (.store flight payload write)))
    (he : e.isReplyOfDisk number = false) :
    (w.step env e).load? number = some (.waiting language (.store flight payload write)) ∨
      ∃ c, (w.step env e).callers[number]? = some c ∧ c.isRunning = false := by
  obtain ⟨c, hc, hload⟩ := load?_eq_some_iff.1 h
  obtain ⟨c', hc', hcomes⟩ := comes_step hsound.fresh e hc
  cases hcomes with
  | stays => exact .inl (load?_eq_some_iff.2 ⟨c, hc', hload⟩)
  | @turns reply language' wait load hwait hturn =>
    rw [step_resume_of_stores hc hload (hsound.own hc hload).2 (not_disk_of_isReplyOfDisk he)]
    exact .inl h
  | leaves _ => exact .inr ⟨_, hc', rfl⟩
  | aborts => exact .inl (load?_eq_some_iff.2 ⟨_, hc', (Caller.load_abort ..).trans hload⟩)

/-- The last event happens after the others. -/
theorem after_append_singleton (env : Loader) (events : List Event) (e : Event) :
    after env (events ++ [e]) = (after env events).step env e := by
  rw [after, List.foldl_append]
  rfl

/-- While a load stores its payload nothing comes of that but how far it has come. -/
theorem after_eq_withWrite
    (h : (after env events).load? number = some (.waiting language (.store flight payload write)))
    (more : List Event) :
    (∃ c, (after env (events ++ more)).callers[number]? = some c ∧ c.isRunning = false) ∨
    ∃ write', (after env (events ++ Event.apart number more)).load? number =
        some (.waiting language (.store flight payload write)) ∧
      after env (events ++ more) =
        (after env (events ++ Event.apart number more)).withWrite number write' := by
  have hsound (events : List Event) : Sound (after env events).state (after env events).callers :=
    sound_of_reachable (reachable_after env events)
  induction more using List.reverseRecOn with
  | nil =>
    rw [Event.apart, List.filter_nil, List.append_nil]
    exact .inr ⟨write, h, (withWrite_self h).symm⟩
  | append_singleton more e ih =>
    rw [← List.append_assoc, after_append_singleton, Event.apart_append_singleton]
    rcases ih with ⟨c, hc, hrunning⟩ | ⟨write', hload, hsame⟩
    · exact .inl (not_isRunning_step (hsound _) hc hrunning e)
    · have hload' := load?_withWrite write' hload
      cases he : e.isReplyOfDisk number with
      | false =>
        -- Anything else happens in both runs.
        rw [if_neg Bool.false_ne_true, ← List.append_assoc, after_append_singleton, hsame,
          step_withWrite (hsound _) hload he]
        rcases load?_step_of_stores (hsound _) hload he with hstores | ⟨c, hc, hrunning⟩
        · exact .inr ⟨write', hstores, rfl⟩
        · refine .inl ⟨c.withWrite write', ?_, ?_⟩
          · rw [getElem?_callers_withWrite, if_pos rfl, hc, Option.map_some]
          · rw [Caller.isRunning_withWrite, hrunning]
      | true =>
        -- A reply of the disk moves the storing on, or the load is over with it.
        rw [if_pos rfl]
        obtain ⟨result, rfl⟩ := Event.exists_of_isReplyOfDisk he
        by_cases hdone : ∃ outcome, write'.next result = .done outcome
        · obtain ⟨outcome, hnext⟩ := hdone
          obtain ⟨c, hc, -⟩ := load?_eq_some_iff.1 hload
          obtain ⟨grammar, hgrammar⟩ := Loader.exists_commit_eq env _ language flight payload
          obtain ⟨skip, hstep⟩ := step_done env hload write' hnext
          rw [hsame, hstep, hgrammar]
          exact .inl ⟨_, (updates_modify hc _ number).trans (if_pos rfl), rfl⟩
        · have hstep := step_next env (hsound (events ++ more)) (hsame ▸ hload')
            (not_exists.1 hdone)
          refine .inr ⟨write'.next result, hload, ?_⟩
          rw [hstep, hsame, withWrite_withWrite]

/-- It does not matter how the storing of a payload ends, except for what the loader remembers. -/
theorem after_eq_of_endsStoring
    (h : (after env events).load? number = some (.waiting language (.store flight payload write)))
    {more : List Event} {outcome : Except IoError Unit}
    (hends : EndsStoring lang number outcome (after env (events ++ more)) e) :
    let w := after env (events ++ Event.apart number more)
    ∃ skip, after env (events ++ more ++ [e]) =
      { w with
        state := { (Loader.commit env w.state language flight payload).1 with skipPersist := skip }
        callers := w.callers.modify number
          (·.carryOn (Loader.commit env w.state language flight payload).2) } := by
  obtain ⟨result, language', flight', payload', write₁, rfl, hload, -, hnext⟩ := hends
  obtain ⟨c, hc, hcload⟩ := load?_eq_some_iff.1 hload
  rcases after_eq_withWrite h more with ⟨d, hd, hrunning⟩ | ⟨write₂, hstores, hsame⟩
  · obtain rfl := Option.some.inj (hc.symm.trans hd)
    exact absurd (Caller.isRunning_of_load hcload) (Bool.eq_false_iff.1 hrunning)
  · rw [hsame, load?_withWrite write₂ hstores] at hload
    cases hload
    rw [after_append_singleton, hsame]
    exact step_done env hstores _ hnext

/-- A load whose storing has ended is over, well or not. -/
theorem exists_result_of_endsStoring (env : Loader) {outcome : Except IoError Unit}
    (h : EndsStoring lang number outcome w e) :
    ∃ result, (w.step env e).result? number = some result := by
  obtain ⟨result, language, flight, payload, write, rfl, hw, -, hnext⟩ := h
  obtain ⟨c, hc, hload⟩ := load?_eq_some_iff.1 hw
  obtain ⟨grammar, hgrammar⟩ := Loader.exists_commit_eq env w.state language flight payload
  obtain ⟨skip, hresume⟩ := Loader.resume_done env w.state language flight payload hnext
  refine ⟨grammar, ?_⟩
  rw [result?_resume hc hload, hresume, hgrammar]
  rfl

/-! ### Who begins to store a payload -/

/-- A load that stores its payload was storing it before, or the loader does not remember its
    language. -/
theorem exists_stores_of_step (hsound : Sound w.state w.callers)
    (h : (w.step env e).load? number = some (.waiting language (.store flight payload write))) :
    (∃ before, w.load? number = some (.waiting language (.store flight payload before))) ∨
      w.state.skipPersist.contains language.name = false := by
  obtain ⟨c', hc', hload'⟩ := load?_eq_some_iff.1 h
  cases hc : w.callers[number]? with
  | none =>
    obtain ⟨lang, rfl⟩ := start_of_step hsound.fresh hc hc'
    exact absurd (Loader.eq_engine_of_begin (Option.some.inj hload')).2 nofun
  | some c =>
    obtain ⟨d, hd, hcomes⟩ := comes_step hsound.fresh e hc
    obtain rfl := Option.some.inj (hc'.symm.trans hd)
    cases hcomes with
    | stays => exact .inl ⟨write, load?_eq_some_iff.2 ⟨_, hc, hload'⟩⟩
    | @turns reply language' wait load hload hturn =>
      rw [load?, getElem?_callers_resume_self hc hload, Option.bind_some] at h
      obtain ⟨rfl, ⟨before, rfl⟩ | hskip⟩ := Loader.stores_of_resume (Option.some.inj h)
      · exact .inl ⟨before, load?_eq_some_iff.2 ⟨c, hc, hload⟩⟩
      · exact .inr hskip
    | leaves _ => cases hload'
    | aborts =>
      rw [Caller.load_abort] at hload'
      exact .inl ⟨write, load?_eq_some_iff.2 ⟨c, hc, hload'⟩⟩

/-- Once a payload comes it is stored, if there is a cache and the loader does not remember the
    language. -/
theorem load?_step_returned {retry : UInt32}
    (h : w.load? number = some (.waiting language (.fetch flight (.calling retry))))
    (hcancelled : w.state.isCancelled flight = false) (hcache : env.cache.isSome) :
    (w.step env (.resume number (.fetch (.returned (.ok payload))))).load? number =
        some (.waiting language (.store flight payload .preparing)) ↔
      w.state.skipPersist.contains language.name = false := by
  obtain ⟨c, hc, hload⟩ := load?_eq_some_iff.1 h
  rw [load?, getElem?_callers_resume_self hc hload, Option.bind_some]
  simp only [Caller.carryOn, Loader.resume, Retry.step, hcancelled, Bool.false_eq_true, if_false,
    Loader.download, Loader.persist, Option.isNone_eq_false_iff.2 hcache, Bool.false_or]
  cases w.state.skipPersist.contains language.name with
  | false => simp
  | true =>
    obtain ⟨result, hresult⟩ := Loader.exists_commit_eq env w.state language flight payload
    simp [hresult]

/-! ### Whole runs -/

/-- Whether a payload of a language could not be stored at one of the events. -/
def HasFailed (env : Loader) (lang : String) (events : List Event) : Prop :=
  ∃ before e rest, events = before ++ e :: rest ∧ FailsToStore lang (after env before) e

/-- What has failed once has failed for good. -/
theorem HasFailed.append (h : HasFailed env lang events) (more : List Event) :
    HasFailed env lang (events ++ more) := by
  obtain ⟨before, e, rest, rfl, hfails⟩ := h
  exact ⟨before, e, rest ++ more, by rw [List.append_assoc, List.cons_append], hfails⟩

/-- What has failed did so at the last event or before. -/
theorem hasFailed_append_singleton :
    HasFailed env lang (events ++ [e]) ↔
      HasFailed env lang events ∨ FailsToStore lang (after env events) e := by
  constructor
  · rintro ⟨before, e', rest, heq, hfails⟩
    rcases List.eq_nil_or_concat rest with rfl | ⟨rest, last, rfl⟩
    · obtain ⟨rfl, hsingle⟩ := List.append_inj' heq rfl
      obtain rfl := List.singleton_inj.1 hsingle
      exact .inr hfails
    · rw [List.concat_eq_append, ← List.cons_append, ← List.append_assoc] at heq
      exact .inl ⟨before, e', rest, (List.append_inj' heq rfl).1, hfails⟩
  · rintro (hfailed | hfails)
    · exact hfailed.append [e]
    · exact ⟨events, e, [], rfl, hfails⟩

/-- The loader remembers just the languages for which something could not be stored. -/
theorem skipPersist_after (env : Loader) (events : List Event) (lang : String) :
    (after env events).state.skipPersist.contains lang ↔ HasFailed env lang events := by
  induction events using List.reverseRecOn with
  | nil =>
    constructor
    · exact fun h => absurd h Bool.false_ne_true
    · rintro ⟨before, e, rest, heq, _⟩
      simp at heq
  | append_singleton events e ih =>
    rw [after_append_singleton, skipPersist_step, ih, hasFailed_append_singleton]

/-- A load that stores a payload of a language that the loader remembers has been storing it since
    then. -/
theorem exists_stores_of_hasFailed (hfailed : HasFailed env language.name events)
    (more : List Event)
    (h : (after env (events ++ more)).load? number =
      some (.waiting language (.store flight payload write))) :
    ∃ before, (after env events).load? number =
      some (.waiting language (.store flight payload before)) := by
  induction more using List.reverseRecOn generalizing write with
  | nil => exact ⟨write, by rwa [List.append_nil] at h⟩
  | append_singleton more e ih =>
    rw [← List.append_assoc, after_append_singleton] at h
    -- It can only have begun at a time at which the loader did not remember the language.
    rcases exists_stores_of_step (sound_of_reachable (reachable_after ..)) h with
      ⟨before, hbefore⟩ | hskip
    · exact ih hbefore
    · have hremembered : HasFailed env language.name (events ++ more) := hfailed.append more
      rw [← skipPersist_after, hskip] at hremembered
      exact absurd hremembered Bool.false_ne_true

/-- What comes of payloads that cannot be stored. -/
structure IsUndisturbed (env : Loader) (events : List Event) : Prop where
  /-- Be it as it may how the storing of a payload ends, and what the disk does meanwhile: if all
      else happens just so, the same comes of the load, and nothing is different afterwards, in
      particular not which grammars are there, except for what the loader remembers not to
      store. -/
  immune : ∀ number language flight payload write more more' e e' lang outcome outcome',
    (after env events).load? number = some (.waiting language (.store flight payload write)) →
    Event.apart number more = Event.apart number more' →
    EndsStoring lang number outcome (after env (events ++ more)) e →
    EndsStoring lang number outcome' (after env (events ++ more')) e' →
    let w := after env (events ++ more ++ [e])
    let w' := after env (events ++ more' ++ [e'])
    (∃ result, w.result? number = some result ∧ w'.result? number = some result) ∧
      w'.state.loaded = w.state.loaded ∧
      w' = { w with state := { w.state with skipPersist := w'.state.skipPersist } }
  /-- The loader remembers the languages whose payloads could not be stored, and no others. -/
  recorded : ∀ lang, (after env events).state.skipPersist.contains lang ↔
    HasFailed env lang events
  /-- Once that happened, whatever happens then, only those loads of the language write to the
      disk that were already storing their payloads. -/
  spared : ∀ lang more number language wait call, HasFailed env lang events →
    (after env (events ++ more)).load? number = some (.waiting language wait) →
    language.name = lang → wait.request? env lang = some (.perform call) →
    ∃ flight payload before write, wait = .store flight payload write ∧
      (after env events).load? number = some (.waiting language (.store flight payload before))
  /-- The payload of a load that was not cancelled is stored when it comes, unless one of just
      that language could not be stored. -/
  unaffected : ∀ number language flight retry payload, env.cache.isSome →
    (after env events).load? number =
      some (.waiting language (.fetch flight (.calling retry))) →
    (after env events).state.isCancelled flight = false →
    ((after env (events ++ [.resume number (.fetch (.returned (.ok payload)))])).load? number =
        some (.waiting language (.store flight payload .preparing)) ↔
      ¬HasFailed env language.name events)

/-- Whatever happens, a storing that fails disturbs nothing else. -/
theorem isUndisturbed_after (env : Loader) (events : List Event) : IsUndisturbed env events := by
  constructor
  case immune =>
    intro number language flight payload write more more' e e' lang outcome outcome' hload hmore
      hends hends'
    -- After either outcome the site is as it was but for the list of languages that are not stored.
    obtain ⟨skip, hw⟩ := after_eq_of_endsStoring hload hends
    obtain ⟨skip', hw'⟩ := after_eq_of_endsStoring hload hends'
    rw [hmore] at hw
    obtain ⟨result, hresult⟩ := exists_result_of_endsStoring env hends
    have hsame : after env (events ++ more' ++ [e']) =
        { after env (events ++ more ++ [e]) with
          state := { (after env (events ++ more ++ [e])).state with
            skipPersist := (after env (events ++ more' ++ [e'])).state.skipPersist } } := by
      rw [hw, hw']
    rw [← after_append_singleton] at hresult
    exact ⟨⟨result, hresult, hsame ▸ hresult⟩, congrArg (·.state.loaded) hsame, hsame⟩
  case recorded => exact skipPersist_after env events
  case spared =>
    rintro _ more number language wait call hfailed hload rfl hcall
    cases wait with
    | store flight payload write =>
      obtain ⟨before, hbefore⟩ := exists_stores_of_hasFailed hfailed more hload
      exact ⟨flight, payload, before, write, rfl, hbefore⟩
    | fetch flight phase => cases phase <;> cases hcall
    | engine => cases hcall
    | _ => simp [LoadWait.request?] at hcall
  case unaffected =>
    intro number language flight retry payload hcache hload hcancelled
    rw [after_append_singleton, load?_step_returned hload hcancelled hcache,
      ← skipPersist_after, Bool.not_eq_true]

/-- The same comes of a load whether its payload is stored or the disk is full, and the next load
    does not try to store it again. -/
theorem isUndisturbed_full_disk :
    let env : Loader := { source := .standard, cache := some ⟨"grammars"⟩, policy := .once }
    let fetched : List LoadReply := [.engine (.ok ()), .probed false,
      .fetch (.returned (.ok (Text.encode "alias:rust")))]
    let came := Event.load "rust" :: fetched.map (.resume 0)
    let stored := came ++ [0, 1, 0, 0, 0].map fun n => .resume 0 (.disk (.ok n))
    let full := came ++ [.resume 0 (.disk (.error (.other "No space left on device")))]
    let again := [Event.abort "rust", .load "rust"] ++ fetched.map (.resume 1)
    IsUndisturbed env came ∧ (after env stored).result? 0 = (after env full).result? 0 ∧
      (after env full).state.has "rust" ∧ (after env full).state.skipPersist = ["rust"] ∧
      IsUndisturbed env full ∧ (after env (full ++ again)).state.has "rust" :=
  ⟨isUndisturbed_after _ _, by decide +kernel, by decide +kernel, by decide +kernel,
    isUndisturbed_after _ _, by decide +kernel⟩

end Traffic

end SymbolPaths
