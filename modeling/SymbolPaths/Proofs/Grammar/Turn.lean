import SymbolPaths.Grammar.Loader

/-!
# The turns of a load

A load acts only when it is resumed, and then nobody else does: that is a turn.
What can come of a turn is said here once, for all that is proved about loads that
run side by side.

* `get?_inFlight_register`, `get?_inFlight_release`, `get?_inFlight_abort`: how the list
  of loads under way changes;
* `Follows`: what a load that is entered in the list may wait for next. Once it is
  cancelled that is never a download or a delay;
* `Turn`: what a turn makes of a load and of what the loader remembers;
* `turn_resume`: whatever the reply, carrying a load on is a turn.

There are eight kinds of turns, and what is said of each is all that can be known of it: where the
load goes on, for what it may wait; where it breaks off, for which reason; where it ends with a
grammar, from which payload that was made. Later proofs take these cases apart and never the code
of a load.
-/

namespace SymbolPaths

/-! ### Changes of the list -/

namespace LoaderState

variable (s : LoaderState) (lang other : String) (flight n : Nat)

theorem get?_inFlight_register : (s.register lang).inFlight.get? other =
    if other = lang then some (s.lastFlight + 1) else s.inFlight.get? other :=
  Table.get?_put ..

/-- A load leaves the list only if it is the one that is entered there: a later load of the language
    stays. -/
theorem get?_inFlight_release : (s.release lang flight).inFlight.get? other =
    if other = lang ∧ s.inFlight.get? lang = some flight then none
    else s.inFlight.get? other := by
  rw [release]
  split
  · next h => simp [Table.get?_erase, h]
  · next h => simp [h]

@[simp] theorem loaded_release : (s.release lang flight).loaded = s.loaded := by
  rw [release]
  split <;> rfl

@[simp] theorem cancelled_release : (s.release lang flight).cancelled = s.cancelled := by
  rw [release]
  split <;> rfl

@[simp] theorem lastFlight_release : (s.release lang flight).lastFlight = s.lastFlight := by
  rw [release]
  split <;> rfl

theorem get?_inFlight_abort : (s.abort lang).1.inFlight.get? other =
    if other = lang then none else s.inFlight.get? other :=
  Table.get?_erase ..

theorem get?_loaded_abort : (s.abort lang).1.loaded.get? other =
    if other = lang then none else s.loaded.get? other :=
  Table.get?_erase ..

theorem isCancelled_abort : (s.abort lang).1.isCancelled n ↔
    s.inFlight.get? lang = some n ∨ s.isCancelled n := by
  simp only [abort, isCancelled]
  cases s.inFlight.get? lang with
  | none => simp
  | some flight => rw [List.contains_cons, Bool.or_eq_true, beq_iff_eq, Option.some.injEq, eq_comm]

theorem isAcquiring_eq_false : s.isAcquiring lang = false ↔ s.inFlight.get? lang = none := by
  simp [isAcquiring, Table.contains]

theorem isAcquiring_eq_true :
    s.isAcquiring lang = true ↔ ∃ flight, s.inFlight.get? lang = some flight := by
  simp [isAcquiring, Table.contains, Option.isSome_iff_exists]

end LoaderState

/-! ### What is waited for -/

namespace LoadReply

/-- The failure that a reply tells of, if it comes from the engine or from a
    download. -/
def error? : LoadReply → Option AcquireError
  | .engine (.error e) => some e
  | .fetch (.returned (.error e)) => some e
  | _ => none

end LoadReply

namespace LoadWait

/-- The number of a load that waits, if it is entered in the list. -/
def flight? : LoadWait → Option Nat
  | engine => none
  | probe flight => some flight
  | read flight => some flight
  | fetch flight _ => some flight
  | store flight _ _ => some flight

/-- Whether a download is under way. -/
def isDownloading : LoadWait → Bool
  | fetch _ (.calling _) => true
  | _ => false

/-- The payload that a load has in hand when a reply has come. -/
def payload? : LoadWait → LoadReply → Option Bytes
  | read _, .read (.ok payload) => some payload
  | fetch _ (.calling _), .fetch (.returned (.ok payload)) => some payload
  | store _ payload _, .disk _ => some payload
  | _, _ => none

/-- A download is under way only for a load that is entered in the list. -/
theorem flight?_of_isDownloading {wait : LoadWait} (h : wait.isDownloading) :
    ∃ flight, wait.flight? = some flight := by
  cases wait with
  | fetch flight phase => exact ⟨flight, rfl⟩
  | _ => cases h

end LoadWait

theorem Load.flight?_waiting (language : Language) (wait : LoadWait) :
    (Load.waiting language wait).flight? = wait.flight? := by
  cases wait <;> rfl

/-! ### Turns -/

namespace Loader

/-- A load that does not end as it starts waits for the engine. -/
theorem eq_engine_of_begin {s : LoaderState} {lang : String} {language : Language}
    {wait : LoadWait} (h : Loader.begin s lang = .waiting language wait) :
    language.name = lang ∧ wait = .engine := by
  rw [Loader.begin] at h
  split at h
  · cases h
  · next hfind =>
    split at h
    · cases h
    · cases h
      exact ⟨(Language.find?_eq_some hfind).2, rfl⟩

/-- A load that is given up leaves the list if it was entered there. -/
theorem drop_waiting (s : LoaderState) (language : Language) (wait : LoadWait) :
    drop s (.waiting language wait) = match wait.flight? with
      | some flight => s.release language.name flight
      | none => s := by
  cases wait <;> rfl

/-- What a load that is entered in the list may wait for next, other than before. -/
inductive Follows (env : Loader) (s : LoaderState) (reply : LoadReply) (flight : Nat) :
    LoadWait → LoadWait → Prop
  /-- There is something in the cache, and it is read next. -/
  | reads : Follows env s reply flight (.probe flight) (.read flight)
  /-- There is nothing to be had from the cache, and the download begins. -/
  | begins {wait : LoadWait} :
      wait = .probe flight ∨ wait = .read flight → s.isCancelled flight = false →
      Follows env s reply flight wait (.fetch flight (.calling 0))
  /-- An attempt has failed, and there are retries left. -/
  | pauses {retry : UInt32} : retry < env.policy.retries → s.isCancelled flight = false →
      Follows env s reply flight (.fetch flight (.calling retry)) (.fetch flight (.waiting retry))
  /-- The delay is over. -/
  | repeats {retry : UInt32} : s.isCancelled flight = false →
      Follows env s reply flight (.fetch flight (.waiting retry))
        (.fetch flight (.calling (retry + 1)))
  /-- The payload has come, and is stored next. -/
  | stores {retry : UInt32} {payload : Bytes} : s.isCancelled flight = false →
      reply = .fetch (.returned (.ok payload)) →
      Follows env s reply flight (.fetch flight (.calling retry)) (.store flight payload .preparing)
  /-- Storing goes on with its next operation. -/
  | writes {payload : Bytes} {write : CacheWrite} {result : Except IoError Nat} :
      reply = .disk result → Follows env s reply flight (.store flight payload write)
        (.store flight payload (write.next result))

/-- Why a load that is entered in the list fails. -/
inductive Cause (env : Loader) (s : LoaderState) (lang : String) (flight : Nat) (wait : LoadWait)
    (reply : LoadReply) : AcquireError → Prop
  /-- It was cancelled. -/
  | cancelled : s.isCancelled flight = true → Cause env s lang flight wait reply (.aborted lang)
  /-- The download has failed for good. -/
  | download {e : AcquireError} : s.isCancelled flight = false →
      reply = .fetch (.returned (.error e)) → Cause env s lang flight wait reply e
  /-- The engine does not accept the payload. -/
  | payload {payload : Bytes} {e : AcquireError} : s.isCancelled flight = false →
      wait.payload? reply = some payload → env.make lang payload = .error e →
      Cause env s lang flight wait reply e

/-- What a turn makes of a load that waits, and of what the loader remembers. -/
inductive Turn (env : Loader) (s : LoaderState) (language : Language) (reply : LoadReply) :
    LoadWait → LoaderState → Load → Prop
  /-- The reply is not one that the load waits for, or there is none yet. -/
  | stays {wait : LoadWait} : Turn env s language reply wait s (.waiting language wait)
  /-- The engine did not come up. -/
  | fails {e : AcquireError} : reply = .engine (.error e) →
      Turn env s language reply .engine s (.finished (.error e))
  /-- The grammar is there. -/
  | finds {handle : GrammarHandle} : reply = .engine (.ok ()) →
      s.loaded.get? language.name = some handle →
      Turn env s language reply .engine { s with ready := true } (.finished (.ok handle))
  /-- Another load is at it. -/
  | yields : reply = .engine (.ok ()) → s.loaded.get? language.name = none →
      s.isAcquiring language.name = true →
      Turn env s language reply .engine { s with ready := true }
        (.finished (.error (.inProgress language.name)))
  /-- The load is entered in the list. -/
  | enters {wait : LoadWait} : reply = .engine (.ok ()) →
      s.loaded.get? language.name = none → s.isAcquiring language.name = false →
      wait = .probe (s.lastFlight + 1) ∨ wait = .fetch (s.lastFlight + 1) (.calling 0) →
      Turn env s language reply .engine ({ s with ready := true }.register language.name)
        (.waiting language wait)
  /-- The load waits for what comes next. -/
  | goesOn {flight : Nat} {before after : LoadWait} : before.flight? = some flight →
      Follows env s reply flight before after →
      Turn env s language reply before s (.waiting language after)
  /-- The load ends without a grammar. -/
  | breaksOff {flight : Nat} {before : LoadWait} {e : AcquireError} (skip : List String) :
      before.flight? = some flight → Cause env s language.name flight before reply e →
      Turn env s language reply before
        ({ s with skipPersist := skip }.release language.name flight) (.finished (.error e))
  /-- The load ends with a grammar, which is kept. -/
  | succeeds {flight : Nat} {before : LoadWait} {payload : Bytes} {grammar : Grammar}
      (skip : List String) :
      before.flight? = some flight → s.isCancelled flight = false →
      before.payload? reply = some payload → env.make language.name payload = .ok grammar →
      Turn env s language reply before
        ({ s with
            skipPersist := skip
            loaded := s.loaded.put language.name ⟨language, grammar⟩ }.release
          language.name flight)
        (.finished (.ok ⟨language, grammar⟩))

variable {env : Loader} {s : LoaderState} {language : Language} {reply : LoadReply}
  {wait : LoadWait} {flight : Nat} {payload : Bytes}

/-- A load keeps its number. -/
theorem Follows.flight? {before after : LoadWait} (h : Follows env s reply flight before after) :
    after.flight? = some flight := by
  cases h <;> rfl

/-- With a payload in hand a load ends. -/
theorem isFinished_commit : (commit env s language flight payload).2.isFinished := by
  rw [commit]
  split
  · rfl
  · split <;> rfl

/-- With a payload in hand a load breaks off if it was cancelled or the payload is refused, and
    keeps the grammar otherwise. -/
theorem turn_commit (hflight : wait.flight? = some flight)
    (hpayload : wait.payload? reply = some payload) (skip : List String) :
    let after := commit env { s with skipPersist := skip } language flight payload
    Turn env s language reply wait after.1 after.2 := by
  have hskip : ({ s with skipPersist := skip } : LoaderState).isCancelled flight =
      s.isCancelled flight := rfl
  cases hcancelled : s.isCancelled flight with
  | true =>
    simp only [commit, hskip, hcancelled, if_true]
    exact .breaksOff skip hflight (.cancelled hcancelled)
  | false =>
    simp only [commit, hskip, hcancelled, Bool.false_eq_true, if_false]
    split
    · next e hload => exact .breaksOff skip hflight (.payload hcancelled hpayload hload)
    · next grammar hload => exact .succeeds skip hflight hcancelled hpayload hload

/-- A load that has nothing on the disk downloads, unless it was cancelled. -/
theorem turn_beginDownload (hwait : wait = .probe flight ∨ wait = .read flight) :
    let after := beginDownload env s language flight
    Turn env s language reply wait after.1 after.2 := by
  have hflight : wait.flight? = some flight := by rcases hwait with rfl | rfl <;> rfl
  cases hcancelled : s.isCancelled flight with
  | true =>
    simp only [beginDownload, Retry.begin, hcancelled, if_true, download]
    exact .breaksOff s.skipPersist hflight (.cancelled hcancelled)
  | false =>
    simp only [beginDownload, Retry.begin, hcancelled, Bool.false_eq_true, if_false, download]
    exact .goesOn hflight (.begins hwait hcancelled)

/-- A download that was looked at goes on, is repeated, or is over. -/
theorem turn_download {phase : Retry.Phase} {signal : Retry.Signal AcquireError Bytes}
    (hreply : reply = .fetch signal) :
    let after := download env s language flight
      (Retry.step env.policy AcquireError.isRetryable (s.isCancelled flight) phase signal)
    Turn env s language reply (.fetch flight phase) after.1 after.2 := by
  -- Cancellation is looked at first, whatever the signal says.
  cases hcancelled : s.isCancelled flight with
  | true => exact .breaksOff s.skipPersist rfl (.cancelled hcancelled)
  | false =>
    cases phase with
    | waiting retry =>
      cases signal with
      | elapsed => exact .goesOn rfl (.repeats hcancelled)
      | returned outcome => exact .stays
      | idle => exact .stays
    | calling retry =>
      cases signal with
      | elapsed => exact .stays
      | idle => exact .stays
      | returned outcome =>
        cases outcome with
        | ok payload =>
          simp only [Retry.step, Bool.false_eq_true, if_false, download, persist]
          split
          · exact turn_commit rfl (hreply ▸ rfl) s.skipPersist
          · exact .goesOn rfl (.stores hcancelled hreply)
        | error e =>
          simp only [Retry.step, Bool.false_eq_true, if_false]
          split
          · exact .breaksOff s.skipPersist rfl (.download hcancelled hreply)
          · next hretry =>
            simp only [Bool.or_eq_true, decide_eq_true_eq, not_or, UInt32.not_le] at hretry
            exact .goesOn rfl (.pauses hretry.1 hcancelled)

/-- Past the engine, a load finds the grammar, yields to another load, or is entered
    in the list under a number that nobody has cancelled yet. -/
theorem turn_enter (hfresh : s.isCancelled (s.lastFlight + 1) = false) :
    let after := enter env { s with ready := true } language
    Turn env s language (.engine (.ok ())) .engine after.1 after.2 := by
  simp only [enter]
  split
  · next handle hloaded => exact .finds rfl hloaded
  · next hloaded =>
    split
    · next hacquiring => exact .yields rfl hloaded hacquiring
    · next hacquiring =>
      have hfree : s.isAcquiring language.name = false := Bool.eq_false_iff.2 hacquiring
      split
      · exact .enters rfl hloaded hfree (.inl rfl)
      · -- Without a cache the download begins at once: nobody can have cancelled it yet.
        have hbegin : beginDownload env ({ s with ready := true }.register language.name) language
            (s.lastFlight + 1) = ({ s with ready := true }.register language.name,
              .waiting language (.fetch (s.lastFlight + 1) (.calling 0))) := by
          simp only [beginDownload, LoaderState.isCancelled, LoaderState.register] at hfresh ⊢
          rw [hfresh]
          rfl
        exact hbegin ▸ .enters rfl hloaded hfree (.inr rfl)

/-- Carrying a load on that is entered in the list is a turn. -/
theorem turn_resume_of_flight? (hflight : wait.flight? = some flight) :
    let after := resume env s (.waiting language wait) reply
    Turn env s language reply wait after.1 after.2 := by
  intro after
  cases wait with
  | engine => cases hflight
  | probe flight =>
    cases reply with
    | probed present =>
      cases present with
      | true => exact .goesOn rfl .reads
      | false => exact turn_beginDownload (.inl rfl)
    | _ => exact .stays
  | read flight =>
    cases reply with
    | read result =>
      cases result with
      | ok payload => exact turn_commit rfl rfl s.skipPersist
      | error e => exact turn_beginDownload (.inr rfl)
    | _ => exact .stays
  | fetch flight phase =>
    cases reply with
    | fetch signal => exact turn_download rfl
    | _ => exact .stays
  | store flight payload write =>
    cases reply with
    | disk result =>
      -- Storing is never broken off, so a cancellation is seen only when it is done.
      have hwrites : Turn env s language (.disk result) (.store flight payload write) s
          (.waiting language (.store flight payload (write.next result))) :=
        .goesOn rfl (.writes rfl)
      simp only [after, resume]
      split
      · exact turn_commit rfl rfl s.skipPersist
      · exact turn_commit rfl rfl (language.name :: s.skipPersist)
      · exact hwrites
    | _ => exact .stays

/-- Whatever the reply, carrying a load on is a turn. -/
theorem turn_resume (hfresh : s.isCancelled (s.lastFlight + 1) = false) (wait : LoadWait) :
    let after := resume env s (.waiting language wait) reply
    Turn env s language reply wait after.1 after.2 := by
  cases wait with
  | engine =>
    cases reply with
    | engine result =>
      cases result with
      | error e => exact .fails rfl
      | ok => exact turn_enter hfresh
    | _ => exact .stays
  | _ => exact turn_resume_of_flight? rfl

end Loader

end SymbolPaths
