import SymbolPaths.Proofs.Grammar.Counterpart
import SymbolPaths.Proofs.Grammar.Storage

/-!
# Loads that are alike

The loads of one language in two loaders may have different numbers, and different numbers may
be those of the files that they have open, and yet they may have come equally far. If they are
then told the same, they go on to be so; and what they depend on of what a loader remembers is
what it remembers of their language, which no load of another language changes.

* `LoaderState.AreAlike`: two loaders remember the same of a language;
* `Load.IsLike`: two loads have come equally far;
* `Loader.Answers`: two loads are told the same;
* `Loader.alike_resume`: what becomes of them then;
* `Loader.alike_resume_of_ne`: a load of another language.

Two loads of one language that have come equally far may differ in their numbers, in the numbers
of the files that they have open, and in the reasons for which a file could not be written, and in
nothing else. All three are left open: numbers are only ever compared with the list and with what
was cancelled, an open file is only written to, and a reason for which storing failed is told to
nobody. So one case for each form of waiting is enough, with the files that belong to each other
as a parameter.
-/

namespace SymbolPaths

namespace LoaderState

/-- Whether two loaders remember the same of a language, apart from the loads under way. -/
structure AreAlike (lang : String) (s t : LoaderState) : Prop where
  loaded : s.loaded.get? lang = t.loaded.get? lang
  skips : s.skipPersist.contains lang = t.skipPersist.contains lang

variable {lang other : String} {s t u : LoaderState}

theorem AreAlike.refl (lang : String) (s : LoaderState) : AreAlike lang s s := ⟨rfl, rfl⟩

theorem AreAlike.symm (h : AreAlike lang s t) : AreAlike lang t s := ⟨h.loaded.symm, h.skips.symm⟩

theorem AreAlike.trans (h : AreAlike lang s t) (h' : AreAlike lang t u) : AreAlike lang s u :=
  ⟨h.loaded.trans h'.loaded, h.skips.trans h'.skips⟩

/-- A load that leaves the list changes nothing else. -/
theorem alike_release (lang other : String) (flight : Nat) (s : LoaderState) :
    AreAlike lang (s.release other flight) s := by
  rw [release]
  split <;> exact ⟨rfl, rfl⟩

theorem alike_abort (h : AreAlike lang s t) : AreAlike lang (s.abort lang).1 (t.abort lang).1 :=
  ⟨by rw [get?_loaded_abort, get?_loaded_abort, if_pos rfl, if_pos rfl], h.skips⟩

/-- Aborting a language changes nothing of what is remembered of another one. -/
theorem alike_abort_of_ne (hne : lang ≠ other) (s : LoaderState) :
    AreAlike lang (s.abort other).1 s :=
  ⟨by rw [get?_loaded_abort, if_neg hne], rfl⟩

end LoaderState

/-- Whether two loads wait for the same, and have come equally far in storing what they store. -/
inductive LoadWait.IsLike (T : Nat → Nat → Prop) : LoadWait → LoadWait → Prop
  /-- Both wait for the engine. -/
  | engine : IsLike T .engine .engine
  /-- Both look whether there is a payload. -/
  | probe {f g : Nat} : IsLike T (.probe f) (.probe g)
  /-- Both read the payload. -/
  | read {f g : Nat} : IsLike T (.read f) (.read g)
  /-- Both are at the same attempt of the download, or in the delay after it. -/
  | fetch {f g : Nat} (phase : Retry.Phase) : IsLike T (.fetch f phase) (.fetch g phase)
  /-- Both store the same payload and have come equally far. -/
  | store {f g : Nat} {write write' : CacheWrite} (payload : Bytes) : write.IsLike T write' →
      IsLike T (.store f payload write) (.store g payload write')

/-- Whether two loads have come equally far. -/
inductive Load.IsLike (T : Nat → Nat → Prop) : Load → Load → Prop
  /-- Both wait for the same, with the same language. -/
  | waiting {wait wait' : LoadWait} (language : Language) : wait.IsLike T wait' →
      IsLike T (.waiting language wait) (.waiting language wait')
  /-- Both have ended with the same result. -/
  | finished (result : Except AcquireError GrammarHandle) :
      IsLike T (.finished result) (.finished result)

/-- Whether two callers have called the same, and what became of their loads is the same. -/
structure Caller.IsLike (T : Nat → Nat → Prop) (a b : Caller) : Prop where
  /-- Both have called the same language. -/
  lang : a.lang = b.lang
  /-- Neither has a load any more, or both loads are alike. -/
  load : Option.Rel (Load.IsLike T) a.load b.load
  /-- Both loads were entered in the list, or neither was. -/
  flight : a.flight.isSome = b.flight.isSome
  /-- Both were aborted, or neither was. -/
  aborted : a.aborted = b.aborted

section

variable {T T' : Nat → Nat → Prop} {wait wait' : LoadWait} {load load' : Load} {a b : Caller}

/-- What loads that are alike store stays alike when more files may belong to each other. -/
theorem LoadWait.IsLike.mono (h : wait.IsLike T wait') (hT : ∀ {n m : Nat}, T n m → T' n m) :
    wait.IsLike T' wait' := by
  cases h with
  | engine => exact .engine
  | probe => exact .probe
  | read => exact .read
  | fetch phase => exact .fetch phase
  | store payload hwrite => exact .store payload (hwrite.mono hT)

theorem Load.IsLike.mono (h : load.IsLike T load') (hT : ∀ {n m : Nat}, T n m → T' n m) :
    load.IsLike T' load' := by
  cases h with
  | waiting language hwait => exact .waiting language (hwait.mono hT)
  | finished result => exact .finished result

/-- Of two loads both have a number or none. -/
theorem Load.IsLike.isSome_flight? (h : load.IsLike T load') :
    load.flight?.isSome = load'.flight?.isSome := by
  cases h with
  | waiting language hwait => cases hwait <;> rfl
  | finished => rfl

namespace Caller.IsLike

/-- Of two callers that are alike neither has a load, or both have, and these are alike. -/
theorem load_cases (h : a.IsLike T b) : (a.load = none ∧ b.load = none) ∨
    ∃ load load', a.load = some load ∧ b.load = some load' ∧ load.IsLike T load' := by
  have hload := h.load
  cases ha : a.load with
  | none =>
    cases hb : b.load with
    | none => exact .inl ⟨rfl, rfl⟩
    | some load' =>
      rw [ha, hb] at hload
      cases hload
  | some load =>
    cases hb : b.load with
    | none =>
      rw [ha, hb] at hload
      cases hload
    | some load' =>
      rw [ha, hb] at hload
      exact .inr ⟨load, load', rfl, rfl, Option.rel_some_some.1 hload⟩

theorem mono (h : a.IsLike T b) (hT : ∀ {n m : Nat}, T n m → T' n m) : a.IsLike T' b := by
  refine ⟨h.lang, ?_, h.flight, h.aborted⟩
  rcases h.load_cases with ⟨ha, hb⟩ | ⟨load, load', ha, hb, hload⟩
  · rw [ha, hb]
    exact .none
  · rw [ha, hb]
    exact .some (hload.mono hT)

/-- To callers that are alike came the same. -/
theorem result? (h : a.IsLike T b) : a.result? = b.result? := by
  rw [Caller.result?, Caller.result?]
  rcases h.load_cases with ⟨ha, hb⟩ | ⟨load, load', ha, hb, hload⟩
  · rw [ha, hb]
  · rw [ha, hb]
    cases hload <;> rfl

/-- Of callers that are alike both are waiting or neither is. -/
theorem isRunning (h : a.IsLike T b) : a.isRunning = b.isRunning := by
  rw [Caller.isRunning, Caller.isRunning]
  rcases h.load_cases with ⟨ha, hb⟩ | ⟨load, load', ha, hb, hload⟩
  · rw [ha, hb]
  · rw [ha, hb]
    cases hload <;> rfl

/-- Callers stay alike when their loads go on to be so. -/
theorem carryOn (h : a.IsLike T b) (hload : load.IsLike T' load') :
    (a.carryOn load).IsLike T' (b.carryOn load') := by
  refine ⟨h.lang, .some hload, ?_, h.aborted⟩
  rw [Caller.carryOn, Caller.carryOn, Option.isSome_or, Option.isSome_or, hload.isSome_flight?,
    h.flight]

theorem giveUp (h : a.IsLike T b) : a.giveUp.IsLike T b.giveUp :=
  ⟨h.lang, .none, h.flight, h.aborted⟩

/-- Callers stay alike when both hear of an abortion. -/
theorem abort (h : a.IsLike T b) (lang : String) : (a.abort lang).IsLike T (b.abort lang) where
  lang := by rw [Caller.lang_abort, Caller.lang_abort, h.lang]
  load := by
    rw [Caller.load_abort, Caller.load_abort]
    exact h.load
  flight := by rw [Caller.flight_abort, Caller.flight_abort, h.flight]
  aborted := by
    rw [Caller.aborted_abort, Caller.aborted_abort, h.aborted, h.lang, h.isRunning, h.flight]

end Caller.IsLike

end

/-- Loads of a language that begin in loaders that remember the same of it. -/
theorem Loader.isLike_begin {lang : String} {s t : LoaderState} (T : Nat → Nat → Prop)
    (h : LoaderState.AreAlike lang s t) : (Loader.begin s lang).IsLike T (Loader.begin t lang) := by
  rw [Loader.begin, Loader.begin, ← h.loaded]
  split
  · exact .finished _
  · next language _ =>
    split
    · exact .finished _
    · exact .waiting language .engine

namespace Loader

/-- Whether two loads have come equally far, in loaders that remember the same of a language. -/
structure AreAlike (T : Nat → Nat → Prop) (lang : String) (a b : LoaderState × Load) : Prop where
  state : LoaderState.AreAlike lang a.1 b.1
  load : a.2.IsLike T b.2

/-- Whether two loads that have come equally far are told the same, and have then come equally
    far in storing what they store. -/
inductive Answers (T : Nat → Nat → Prop) : LoadWait → LoadReply → LoadWait → LoadReply → Prop
  /-- The reply does not come from the disk, and is the same. -/
  | elsewhere {wait wait' : LoadWait} {reply : LoadReply} : wait.IsLike T wait' →
      reply.isOfDisk = false → Answers T wait reply wait' reply
  /-- The disk tells both whether there is a payload. -/
  | probes {f g : Nat} (present : Bool) :
      Answers T (.probe f) (.probed present) (.probe g) (.probed present)
  /-- The disk gives both the same payload. -/
  | reads {f g : Nat} (payload : Bytes) :
      Answers T (.read f) (.read (.ok payload)) (.read g) (.read (.ok payload))
  /-- The disk gives no payload to either, whatever the reasons are. -/
  | readFails {f g : Nat} {e e' : IoError} :
      Answers T (.read f) (.read (.error e)) (.read g) (.read (.error e'))
  /-- An operation of storing came to something, and both have the same to do next. -/
  | stores {f g : Nat} {write write' : CacheWrite} {result result' : Except IoError Nat}
      (payload : Bytes) : (write.next result).IsLike T (write'.next result') →
      Answers T (.store f payload write) (.disk result) (.store g payload write') (.disk result')

variable {env : Loader} {T : Nat → Nat → Prop} {s t : LoaderState} {language : Language}
  {lang : String} {f g : Nat} {payload : Bytes} {wait wait' : LoadWait} {reply reply' : LoadReply}

/-! ### Two loads -/

/-- A load that is over leaves the list, in both loaders with the same result. -/
theorem alike_conclude (h : LoaderState.AreAlike lang s t) (f g : Nat)
    (result : Except AcquireError GrammarHandle) :
    AreAlike T lang (conclude s lang f result) (conclude t lang g result) := by
  refine ⟨?_, .finished result⟩
  exact ((LoaderState.alike_release lang lang f s).trans h).trans
    (LoaderState.alike_release lang lang g t).symm

/-- With the same payload both loads end the same, if both were aborted or neither was. -/
theorem alike_commit (h : LoaderState.AreAlike language.name s t)
    (hcancelled : s.isCancelled f = t.isCancelled g) (payload : Bytes) :
    AreAlike T language.name (commit env s language f payload)
      (commit env t language g payload) := by
  simp only [commit, hcancelled]
  split
  · exact alike_conclude h f g _
  · split
    · exact alike_conclude h f g _
    · next grammar _ =>
      let keep (s : LoaderState) : LoaderState :=
        { s with loaded := s.loaded.put language.name ⟨language, grammar⟩ }
      have hkeep : LoaderState.AreAlike language.name (keep s) (keep t) :=
        ⟨by rw [Table.get?_put, Table.get?_put, if_pos rfl, if_pos rfl], h.skips⟩
      exact alike_conclude hkeep f g _

/-- Both store the payload first or neither does, as that depends on what failed for the language
    before. -/
theorem alike_persist (h : LoaderState.AreAlike language.name s t)
    (hcancelled : s.isCancelled f = t.isCancelled g) (payload : Bytes) :
    AreAlike T language.name (persist env s language f payload)
      (persist env t language g payload) := by
  simp only [persist, h.skips]
  split
  · exact alike_commit h hcancelled payload
  · exact ⟨h, .waiting language (.store payload .preparing)⟩

/-- From the same attempt both come to the next one, to their end, or to a payload. -/
theorem alike_download (h : LoaderState.AreAlike language.name s t)
    (hcancelled : s.isCancelled f = t.isCancelled g)
    (progress : Retry.Progress AcquireError Bytes) :
    AreAlike T language.name (download env s language f progress)
      (download env t language g progress) := by
  cases progress with
  | on phase => exact ⟨h, .waiting language (.fetch phase)⟩
  | done result =>
    cases result with
    | ok payload => exact alike_persist h hcancelled payload
    | aborted => exact alike_conclude h f g _
    | failed e => exact alike_conclude h f g _

theorem alike_beginDownload (h : LoaderState.AreAlike language.name s t)
    (hcancelled : s.isCancelled f = t.isCancelled g) :
    AreAlike T language.name (beginDownload env s language f) (beginDownload env t language g) := by
  rw [beginDownload, beginDownload, hcancelled]
  exact alike_download h hcancelled _

/-- Both find the same grammar or the language under way, or both enter the list and look into the
    cache. -/
theorem alike_enter (hcache : env.cache.isSome) (h : LoaderState.AreAlike language.name s t)
    (hacquiring : s.isAcquiring language.name = t.isAcquiring language.name) :
    AreAlike T language.name (enter env s language) (enter env t language) := by
  simp only [enter, h.loaded, hacquiring, hcache, if_true]
  split
  · exact ⟨h, .finished _⟩
  · split
    · exact ⟨h, .finished _⟩
    · exact ⟨⟨h.loaded, h.skips⟩, .waiting language .probe⟩

/-- Two loads that have come equally far, and are told the same, go on to be alike. -/
theorem alike_resume (hcache : env.cache.isSome) (h : LoaderState.AreAlike language.name s t)
    (hacquiring : s.isAcquiring language.name = t.isAcquiring language.name)
    (hcancelled : ∀ {f g : Nat}, wait.flight? = some f → wait'.flight? = some g →
      s.isCancelled f = t.isCancelled g)
    (hanswers : Answers T wait reply wait' reply') :
    AreAlike T language.name (resume env s (.waiting language wait) reply)
      (resume env t (.waiting language wait') reply') := by
  -- The answers say at which pair of waits the two loads are; a reply that does not suit its wait
  -- leaves both where they are.
  cases hanswers with
  | elsewhere hwait hdisk =>
    have hstays : AreAlike T language.name (s, .waiting language wait)
      (t, .waiting language wait') := ⟨h, .waiting language hwait⟩
    cases reply with
    | probed => cases hdisk
    | read => cases hdisk
    | disk => cases hdisk
    | engine result =>
      cases hwait with
      | engine =>
        cases result with
        | error e => exact ⟨h, .finished _⟩
        | ok => exact alike_enter hcache ⟨h.loaded, h.skips⟩ hacquiring
      | _ => exact hstays
    | fetch signal =>
      cases hwait with
      | fetch phase =>
        simp only [resume, hcancelled rfl rfl]
        exact alike_download h (hcancelled rfl rfl) _
      | _ => exact hstays
  | probes present =>
    cases present with
    | true => exact ⟨h, .waiting language .read⟩
    | false => exact alike_beginDownload h (hcancelled rfl rfl)
  | reads payload => exact alike_commit h (hcancelled rfl rfl) payload
  | readFails => exact alike_beginDownload h (hcancelled rfl rfl)
  | @stores f g write write' result result' payload hwrite =>
    simp only [resume]
    generalize write.next result = w, write'.next result' = w' at hwrite
    cases hwrite with
    | succeeded => exact alike_commit h (hcancelled rfl rfl) payload
    | failed =>
      -- A failed write is committed all the same, after the language has been put on both lists.
      let skip (s : LoaderState) : LoaderState :=
        { s with skipPersist := language.name :: s.skipPersist }
      have hskip : LoaderState.AreAlike language.name (skip s) (skip t) :=
        ⟨h.loaded, by rw [List.contains_cons, List.contains_cons, h.skips]⟩
      have hcancelled' : (skip s).isCancelled f = (skip t).isCancelled g := hcancelled rfl rfl
      exact alike_commit hskip hcancelled' payload
    | preparing => exact ⟨h, .waiting language (.store payload .preparing)⟩
    | opening => exact ⟨h, .waiting language (.store payload .opening)⟩
    | filling htied => exact ⟨h, .waiting language (.store payload (.filling htied))⟩
    | syncing => exact ⟨h, .waiting language (.store payload .syncing)⟩
    | naming => exact ⟨h, .waiting language (.store payload .naming)⟩
    | discarding => exact ⟨h, .waiting language (.store payload .discarding)⟩

/-! ### A load of another language -/

/-- A load puts a grammar under the name of its own language only. -/
theorem alike_commit_of_ne (hne : lang ≠ language.name) (s : LoaderState) (f : Nat)
    (payload : Bytes) : LoaderState.AreAlike lang (commit env s language f payload).1 s := by
  simp only [commit]
  split
  · exact LoaderState.alike_release ..
  · split
    · exact LoaderState.alike_release ..
    · refine (LoaderState.alike_release ..).trans ⟨?_, rfl⟩
      rw [Table.get?_put, if_neg hne]

/-- A download is over with a grammar under the name of its own language, or with none. -/
theorem alike_download_of_ne (hne : lang ≠ language.name) (s : LoaderState) (f : Nat)
    (progress : Retry.Progress AcquireError Bytes) :
    LoaderState.AreAlike lang (download env s language f progress).1 s := by
  cases progress with
  | on phase => exact .refl lang s
  | done result =>
    cases result with
    | aborted => exact LoaderState.alike_release ..
    | failed e => exact LoaderState.alike_release ..
    | ok payload =>
      simp only [download, persist]
      split
      · exact alike_commit_of_ne hne s f payload
      · exact .refl lang s

/-- A load enters the list under the name of its own language only. -/
theorem alike_enter_of_ne (hne : lang ≠ language.name) (s : LoaderState) :
    LoaderState.AreAlike lang (enter env s language).1 s := by
  simp only [enter]
  split
  · exact .refl lang s
  · split
    · exact .refl lang s
    · split
      · exact ⟨rfl, rfl⟩
      · exact (alike_download_of_ne hne _ _ _).trans ⟨rfl, rfl⟩

/-- A load changes nothing of what is remembered of another language. -/
theorem alike_resume_of_ne (hne : lang ≠ language.name) (s : LoaderState) (wait : LoadWait)
    (reply : LoadReply) :
    LoaderState.AreAlike lang (resume env s (.waiting language wait) reply).1 s := by
  have hbegin (f : Nat) : LoaderState.AreAlike lang (beginDownload env s language f).1 s :=
    alike_download_of_ne hne s f _
  -- Whatever a load does to the tables, it does under its own name.
  cases wait with
  | engine =>
    cases reply with
    | engine result =>
      cases result with
      | error e => exact .refl lang s
      | ok => exact (alike_enter_of_ne hne _).trans ⟨rfl, rfl⟩
    | _ => exact .refl lang s
  | probe flight =>
    cases reply with
    | probed present =>
      cases present with
      | true => exact .refl lang s
      | false => exact hbegin flight
    | _ => exact .refl lang s
  | read flight =>
    cases reply with
    | read result =>
      cases result with
      | ok payload => exact alike_commit_of_ne hne s flight payload
      | error e => exact hbegin flight
    | _ => exact .refl lang s
  | fetch flight phase =>
    cases reply with
    | fetch signal => exact alike_download_of_ne hne s flight _
    | _ => exact .refl lang s
  | store flight payload write =>
    cases reply with
    | disk result =>
      simp only [resume]
      split
      · exact alike_commit_of_ne hne s flight payload
      · refine (alike_commit_of_ne hne _ flight payload).trans ⟨rfl, ?_⟩
        rw [List.contains_cons, beq_eq_false_iff_ne.2 hne, Bool.false_or]
      · exact .refl lang s
    | _ => exact .refl lang s

/-- A load that is given up changes nothing that is remembered of a language but the list. -/
theorem alike_drop (lang : String) (s : LoaderState) (language : Language) (wait : LoadWait) :
    LoaderState.AreAlike lang (drop s (.waiting language wait)) s := by
  rw [drop_waiting]
  split
  · exact LoaderState.alike_release ..
  · exact .refl lang s

end Loader

end SymbolPaths
