import Mathlib.Data.List.Induction
import Mathlib.Logic.Function.Basic
import SymbolPaths.Proofs.Grammar.Home

/-!
# The ledger of the cache

To whoever calls the cache, one call after another, it is a map from languages to payloads.
A ledger is kept of the calls: a payload is entered for a language when the temporary file
gets its name, and struck out when it is removed. What the cache holds at any moment is what
the ledger says, although any operation on the disk may fail, and the program may stop between
any two of them and be started again.

* `DiskCall.Ends`: how an operation may end, and what it may have done when it fails;
* `CacheWrite.Runs`: what storing a payload may come to, up to its end or up to where the
  program stops;
* `CacheWrite.isAtomic_of_runs`: that changes one payload at once, or nothing at all;
* `CacheCall.Leads`: what calls may lead to, one after another;
* `CacheCall.isLedger_of_leads`: the cache holds what the ledger says.

A single call on the cache is a run of operations, each of which may end badly, and the program
may stop behind any of them. Two things are followed along such a run. One is what the next
operation relies on (`CacheWrite.IsReady`); it is kept whether the operation before ended well or
not. The other is what can be read, which is the same before and behind every operation but one:
the renaming that ends well. So a run changes what can be read at once or not at all, and it does
so exactly if the renaming is among its operations (`CacheWrite.completes`).

Whoever calls next may be another program. So what is kept from one call to the next
(`CacheCall.IsKept`) is about the disk and the ledger, and nothing is remembered of the call
before. Two things are asked of the disk at first: that no file has two names in the directory of
the cache, and that making the directory brings no payload to light. Neither can be left out, as
`CacheCall.not_isLedger_of_hidden_or_shared` shows.
-/

namespace SymbolPaths

open FilePath (place)

namespace DiskCall

/-- How an operation may end, and what it may leave. -/
inductive Ends (d : Disk) : DiskCall → Except IoError Nat → Disk → Prop
  /-- It was performed, with what came of that. -/
  | performs {call : DiskCall} {result : Except IoError Nat} {d' : Disk} :
      call.perform d = (d', result) → Ends d call result d'
  /-- It failed and did nothing. -/
  | fails {call : DiskCall} {e : IoError} : Ends d call (.error e) d
  /-- Directories fail to be made, some of which may be there by then. -/
  | makesSome {path : String} {e : IoError} {d' : Disk} : d.Extends d' →
      d'.Extends (d.makeDirs path).1 → Ends d (.makeDirs path) (.error e) d'
  /-- A file fails to be opened, but is there, and empty. -/
  | opens {path : String} {e : IoError} : Ends d (.create path) (.error e) (d.create path).1
  /-- Something else was written. -/
  | writesElse {n offset : Nat} {bytes bytes' : Bytes} {e : IoError} :
      Ends d (.write n offset bytes) (.error e) (d.write n offset bytes')

variable {d d' : Disk} {call : DiskCall} {result : Except IoError Nat} {q : Place} {n : Nat}
  {e : IoError}

/-- An operation that ended well did what it was to do. -/
theorem Ends.effect_of_ok (h : Ends d call (.ok n) d') : call.Effect d d' (.ok n) := by
  cases h with
  | performs hperform =>
    have heffect := effect_perform call d
    rwa [hperform] at heffect

/-- However an operation ended, something was done that may have written other bytes, or nothing. -/
theorem Ends.effect (h : Ends d call result d') :
    ∃ call' result', call.IsLike call' ∧ call'.Effect d d' result' := by
  cases h with
  | performs hperform =>
    have heffect := effect_perform call d
    rw [hperform] at heffect
    exact ⟨call, result, .same call, heffect⟩
  | @fails _ e => exact ⟨call, .error e, .same call, .fails⟩
  | @makesSome _ e _ hextends => exact ⟨_, .error e, .same _, .makes hextends⟩
  | @opens path => exact ⟨_, _, .same _, effect_create d path⟩
  | @writesElse n offset bytes bytes' => exact ⟨_, _, .writes n offset bytes bytes', .writes⟩

/-- A directory stays where it is, whatever fails. -/
theorem Ends.entry?_of_directory (h : Ends d call result d') (hq : d.entry? q = some .directory) :
    d'.entry? q = some .directory := by
  cases h with
  | performs hperform =>
    have hkept := entry?_perform_of_directory call hq
    rwa [hperform] at hkept
  | fails => exact hq
  | makesSome hextends => exact hextends.kept hq
  | @opens path => exact entry?_perform_of_directory (.create path) hq
  | writesElse => exact hq

/-- No directory comes or goes but by making directories. -/
theorem Ends.entry?_directory_iff (h : Ends d call result d')
    (hmakes : ∀ path, call ≠ .makeDirs path) :
    d'.entry? q = some .directory ↔ d.entry? q = some .directory := by
  refine ⟨fun hq => ?_, h.entry?_of_directory⟩
  obtain ⟨call', result', hlike, heffect⟩ := h.effect
  refine heffect.entry?_of_directory ?_ hq
  cases hlike with
  | same => exact hmakes
  | writes => exact nofun

/-- A file that fails to be renamed keeps its name. -/
theorem Ends.eq_of_rename {source target : String}
    (h : Ends d (.rename source target) (.error e) d') : d' = d := by
  cases h with
  | performs hperform =>
    have heffect := effect_perform (.rename source target) d
    rw [hperform] at heffect
    cases heffect
    rfl
  | fails => rfl

end DiskCall

namespace CacheWrite

/-- What may come of storing a payload from a point on: the operations with the results they
    ended with, and how far it comes, which is not its end if the program stops. -/
inductive Runs (c : GrammarCache) (lang : String) (payload : Bytes) :
    CacheWrite → Disk → List (DiskCall × Except IoError Nat) → CacheWrite → Disk → Prop
  /-- The program stops here, or there is nothing more to do. -/
  | stops {write : CacheWrite} {d : Disk} : Runs c lang payload write d [] write d
  /-- The next operation ends somehow, and the writer goes on with what it was told. -/
  | goesOn {write write' : CacheWrite} {d d' d'' : Disk} {call : DiskCall}
      {result : Except IoError Nat} {ops : List (DiskCall × Except IoError Nat)} :
      write.call? c lang payload = some call → call.Ends d result d' →
      Runs c lang payload (write.next result) d' ops write' d'' →
      Runs c lang payload write d ((call, result) :: ops) write' d''

/-- Whether an operation gave a file its name. -/
def renames : DiskCall × Except IoError Nat → Bool
  | (.rename _ _, .ok _) => true
  | _ => false

/-- Whether the temporary file got its name. -/
def completes (ops : List (DiskCall × Except IoError Nat)) : Bool := ops.any renames

/-- What storing a payload comes to, when it has come so far. -/
structure IsAtomic (c : GrammarCache) (lang : String) (payload : Bytes) (d : Disk)
    (ops : List (DiskCall × Except IoError Nat)) (reached : CacheWrite) (d' : Disk) : Prop where
  /-- The payload is the old one or the new one, all of it. -/
  whole : c.payload? lang d' = if completes ops then some payload else c.payload? lang d
  /-- Other payloads are as they were. -/
  others : ∀ language ∈ Language.all, language.name ≠ lang →
    c.payload? language.name d' = c.payload? language.name d
  /-- It is the new one if no failure is reported. -/
  returns : completes ops = true ↔ reached = .done (.ok ())
  /-- After a failure all payloads are as they were. -/
  fails : ∀ e, reached = .done (.error e) → ∀ language ∈ Language.all,
    c.payload? language.name d' = c.payload? language.name d
  /-- After a failure no temporary file is left but one that was there before, unless it could
      not be removed. -/
  cleans : ∀ e n, reached = .done (.error e) →
    d'.entry? (place (c.tempPath lang)) = some (.file n) →
    Disk.SameAt (place (c.tempPath lang)) d d' ∨
      ∃ e', (.remove (c.tempPath lang), .error e') ∈ ops

/-- What is true of the disk when storing a payload has come so far. -/
structure IsReady (c : GrammarCache) (lang : String) (payload : Bytes) (d : Disk)
    (write : CacheWrite) : Prop where
  /-- No file has two names in the directory of the cache. -/
  unshared : d.IsUnshared c.Contains
  /-- Making the directory brings no payload to light. -/
  plain : ∀ language ∈ Language.all, c.IsPlain language.name d
  /-- One gets to the directory, unless it is not made yet or all is over. -/
  home : write = .preparing ∨ (∃ r, write = .done r) ∨ ∃ p, c.home? d = some p
  /-- The temporary file holds what the next operation needs. -/
  fits : write.Fits c lang payload d
  /-- An open file is no file of another language. -/
  owns : ∀ n, write = .filling n → c.Owns lang d n

variable {c : GrammarCache} {lang : String} {payload : Bytes} {d d' : Disk} {p : Place}
  {write reached : CacheWrite} {call : DiskCall} {result : Except IoError Nat} {language : Language}
  {ops : List (DiskCall × Except IoError Nat)}

/-- Nothing more is needed to begin with than what is true of the disk at first. -/
theorem isReady_preparing (hunshared : d.IsUnshared c.Contains)
    (hplain : ∀ language ∈ Language.all, c.IsPlain language.name d) :
    IsReady c lang payload d .preparing :=
  ⟨hunshared, hplain, .inl rfl, trivial, nofun⟩

theorem home?_of_ends (hends : call.Ends d result d') (hhome : c.home? d = some p) :
    c.home? d' = some p :=
  Disk.directory?_of_kept (fun _ hq => hends.entry?_of_directory hq) hhome

/-- Past the making of the directory, one gets there. -/
theorem IsReady.exists_home? (h : IsReady c lang payload d write)
    (hcall : write.call? c lang payload = some call) (hnot : write ≠ .preparing) :
    ∃ p, c.home? d = some p := by
  rcases h.home with hpreparing | ⟨r, rfl⟩ | hhome
  · exact absurd hpreparing hnot
  · cases hcall
  · exact hhome

/-- The directory fails to be made when some of it was made, and then all of it or not. -/
theorem between_of_ends (hends : (DiskCall.makeDirs c.dir).Ends d result d') :
    d.Extends d' ∧ d'.Extends (c.made d) := by
  cases hends with
  | performs hperform =>
    obtain rfl : c.made d = d' := congrArg Prod.fst hperform
    exact ⟨GrammarCache.extends_made c d, .refl _⟩
  | fails => exact ⟨.refl d, GrammarCache.extends_made c d⟩
  | makesSome h h' => exact ⟨h, h'⟩

/-- However an operation ended, the disk is ready for what comes next. Each part of that is kept for
    its own reason. -/
theorem isReady_next (hlang : '/' ∉ lang.toList) (h : IsReady c lang payload d write)
    (hcall : write.call? c lang payload = some call) (hends : call.Ends d result d') :
    IsReady c lang payload d' (write.next result) := by
  obtain ⟨call', result', hlike, heffect⟩ := hends.effect
  constructor
  case unshared =>
    exact heffect.isUnshared h.unshared (hlike.isWithin (isWithin_of_call? hlang hcall))
  case plain =>
    intro language hlanguage
    -- Before the directory is made its place may not be known; from then on it stands where it is.
    by_cases hwrite : write = .preparing
    · subst hwrite
      cases hcall
      obtain ⟨hmore, hless⟩ := between_of_ends hends
      exact GrammarCache.isPlain_of_between (Language.no_slash hlanguage) hmore hless
        (h.plain language hlanguage)
    · obtain ⟨p, hhome⟩ := h.exists_home? hcall hwrite
      exact GrammarCache.isPlain_of_home? (home?_of_ends hends hhome)
  case home =>
    by_cases hwrite : write = .preparing
    · subst hwrite
      cases hcall
      cases result with
      | error e => exact .inr (.inl ⟨_, rfl⟩)
      | ok n =>
        cases hends with
        | performs hperform =>
          have hok : (d.makeDirs c.dir).2 = .ok () := by
            have hresult := congrArg Prod.snd hperform
            simp only [DiskCall.perform] at hresult
            cases hmake : (d.makeDirs c.dir).2 with
            | ok => rfl
            | error e =>
              rw [hmake] at hresult
              cases hresult
          obtain rfl : (d.makeDirs c.dir).1 = d' := congrArg Prod.fst hperform
          exact .inr (.inr (Disk.directory?_makeDirs hok))
    · obtain ⟨p, hhome⟩ := h.exists_home? hcall hwrite
      exact .inr (.inr ⟨p, home?_of_ends hends hhome⟩)
  case fits =>
    cases result with
    | error e => exact fits_next_error e
    | ok n => exact fits_next h.fits hcall hends.effect_of_ok
  case owns =>
    intro n hnext
    cases result with
    | error e => cases write <;> cases hnext
    | ok m => exact owns_next hlang h.unshared hcall hends.effect_of_ok hnext

/-- A file gets its name exactly if the storing has just ended well. -/
theorem renames_iff (hcall : write.call? c lang payload = some call) :
    renames (call, result) = true ↔ write.next result = .done (.ok ()) := by
  cases write <;> cases hcall <;> cases result <;> simp [renames, next]

/-- The payloads after an operation. -/
theorem payload?_of_ends (hlang : '/' ∉ lang.toList) (h : IsReady c lang payload d write)
    (hcall : write.call? c lang payload = some call) (hends : call.Ends d result d')
    (hlanguage : language ∈ Language.all) : c.payload? language.name d' =
      if language.name = lang ∧ renames (call, result) then some payload
      else c.payload? language.name d := by
  have hslash := Language.no_slash hlanguage
  by_cases hwrite : write = .preparing
  · subst hwrite
    cases hcall
    obtain ⟨hmore, hless⟩ := between_of_ends hends
    rw [if_neg (by simp [renames])]
    exact GrammarCache.payload?_of_between hslash hmore hless (h.plain language hlanguage)
  · obtain ⟨p, hhome⟩ := h.exists_home? hcall hwrite
    obtain ⟨call', result', hlike, heffect⟩ := hends.effect
    rw [GrammarCache.payload?_eq_stored? hslash hhome,
      GrammarCache.payload?_eq_stored? hslash (home?_of_ends hends hhome)]
    -- The language's own file changes at the renaming only; a file of another language is avoided.
    by_cases hname : language.name = lang
    · subst hname
      by_cases hnaming : write = .naming
      · subst hnaming
        cases hcall
        cases result with
        | ok n =>
          rw [if_pos ⟨rfl, rfl⟩]
          exact stored?_of_rename h.fits hends.effect_of_ok
        | error e => rw [if_neg (by simp [renames]), hends.eq_of_rename]
      · rw [if_neg]
        · rcases stored?_of_effect h.unshared hslash h.fits hcall hlike heffect with hkept | ⟨hn, _⟩
          · exact hkept
          · exact absurd hn hnaming
        · rintro ⟨_, hrenames⟩
          refine hnaming ?_
          cases write <;> cases hcall <;> first | rfl | cases hrenames
    · rw [if_neg fun hand => hname hand.1]
      refine GrammarCache.stored?_of_avoids hslash h.unshared heffect
        (hlike.isWithin (isWithin_of_call? hlang hcall)) (hlike.avoids ?_)
      exact avoids_of_ne hslash hlang hname (.inl rfl) h.owns hcall

/-- No operation puts a directory in the way of a payload, or removes one. -/
theorem isBlocked_of_ends (h : IsReady c lang payload d write)
    (hcall : write.call? c lang payload = some call) (hends : call.Ends d result d')
    (hlanguage : language ∈ Language.all) :
    c.IsBlocked language.name d' ↔ c.IsBlocked language.name d := by
  by_cases hwrite : write = .preparing
  · subst hwrite
    cases hcall
    obtain ⟨hmore, hless⟩ := between_of_ends hends
    exact GrammarCache.isBlocked_of_between (Language.no_slash hlanguage) hmore hless
      (h.plain language hlanguage)
  · obtain ⟨p, hhome⟩ := h.exists_home? hcall hwrite
    simp only [GrammarCache.IsBlocked, hhome, home?_of_ends hends hhome,
      hends.entry?_directory_iff (ne_makeDirs hcall hwrite)]

/-- What is over does nothing any more. -/
theorem eq_of_runs_done {r : Except IoError Unit}
    (h : Runs c lang payload (.done r) d ops reached d') :
    ops = [] ∧ reached = .done r ∧ d' = d := by
  cases h with
  | stops => exact ⟨rfl, rfl, rfl⟩
  | goesOn hcall => cases hcall

/-- The disk stays ready, by induction on the operations. -/
theorem isReady_of_runs (hlang : '/' ∉ lang.toList) (h : IsReady c lang payload d write)
    (hruns : Runs c lang payload write d ops reached d') : IsReady c lang payload d' reached := by
  induction hruns with
  | stops => exact h
  | goesOn hcall hends _ ih => exact ih (isReady_next hlang h hcall hends)

/-- Of all payloads only that of the language changes, and only if its file gets its name. An
    operation that changes nothing is followed by others that may. -/
theorem payload?_of_runs (hlang : '/' ∉ lang.toList) (h : IsReady c lang payload d write)
    (hruns : Runs c lang payload write d ops reached d') (hlanguage : language ∈ Language.all) :
    c.payload? language.name d' =
      if language.name = lang ∧ completes ops then some payload
      else c.payload? language.name d := by
  induction hruns with
  | stops => simp [completes]
  | @goesOn write write' d d' d'' call result ops hcall hends _ ih =>
    rw [ih (isReady_next hlang h hcall hends), payload?_of_ends hlang h hcall hends hlanguage,
      completes, completes, List.any_cons]
    by_cases hname : language.name = lang
    · cases renames (call, result) <;> cases ops.any renames <;> simp only [hname] <;> rfl
    · simp [hname]

/-- No directory comes into the way of a payload, and none goes. -/
theorem isBlocked_of_runs (hlang : '/' ∉ lang.toList) (h : IsReady c lang payload d write)
    (hruns : Runs c lang payload write d ops reached d') (hlanguage : language ∈ Language.all) :
    c.IsBlocked language.name d' ↔ c.IsBlocked language.name d := by
  induction hruns with
  | stops => exact Iff.rfl
  | goesOn hcall hends _ ih =>
    exact (ih (isReady_next hlang h hcall hends)).trans
      (isBlocked_of_ends h hcall hends hlanguage)

/-- The file gets its name exactly if the storing ends well: the renaming is its last operation
    then. -/
theorem completes_iff (hruns : Runs c lang payload write d ops reached d')
    (hnot : write ≠ .done (.ok ())) : completes ops = true ↔ reached = .done (.ok ()) := by
  induction hruns with
  | stops => simpa [completes] using hnot
  | @goesOn write write' d d' d'' call result ops hcall hends hruns ih =>
    rw [completes, List.any_cons, Bool.or_eq_true, renames_iff hcall]
    by_cases hnext : write.next result = .done (.ok ())
    · rw [hnext] at hruns
      obtain ⟨_, rfl, _⟩ := eq_of_runs_done hruns
      simp [hnext]
    · rw [← ih hnext, completes]
      simp [hnext]

/-- Once the directory is there, whatever fails, the temporary file is removed. -/
theorem removes_of_runs (hruns : Runs c lang payload write d ops reached d') {e : IoError}
    {n : Nat} (hreached : reached = .done (.error e))
    (hentry : d'.entry? (place (c.tempPath lang)) = some (.file n))
    (hwrite : write ≠ .preparing) (hdone : ∀ r, write ≠ .done r) :
    ∃ e', (.remove (c.tempPath lang), .error e') ∈ ops := by
  induction hruns with
  | stops => exact absurd hreached (hdone _)
  | @goesOn write write' d d' d'' call result ops hcall hends hruns ih =>
    by_cases hlast : ∃ cause, write = .discarding cause
    · obtain ⟨cause, rfl⟩ := hlast
      cases hcall
      cases result with
      | error e' => exact ⟨e', List.mem_cons_self⟩
      | ok m =>
        -- It was removed, and that was all.
        obtain ⟨_, _, rfl⟩ := eq_of_runs_done hruns
        have heffect := hends.effect_of_ok
        cases heffect with
        | removes hn' =>
          rw [Disk.entry?_unset d (Disk.ne_nil_of_file hn'), if_pos rfl] at hentry
          cases hentry
    · have hnext : write.next result ≠ .preparing := by
        cases write <;> cases result <;> exact nofun
      have hnext' : ∀ r, write.next result ≠ .done r := by
        intro r hr
        cases write <;> cases hcall <;> cases result <;> first
          | exact hwrite rfl
          | exact hlast ⟨_, rfl⟩
          | cases hr
        obtain ⟨_, h, _⟩ := eq_of_runs_done hruns
        cases hreached.symm.trans h
      obtain ⟨e', he'⟩ := ih hreached hentry hnext hnext'
      exact ⟨e', List.mem_cons_of_mem _ he'⟩

/-- Storing a payload changes what is found for its language at once, or not at all. -/
theorem isAtomic_of_runs (hlanguage : language ∈ Language.all)
    (h : IsReady c language.name payload d .preparing)
    (hruns : Runs c language.name payload .preparing d ops reached d') :
    IsAtomic c language.name payload d ops reached d' := by
  have hlang := Language.no_slash hlanguage
  have hreturns := completes_iff hruns nofun
  constructor
  case whole => simpa using payload?_of_runs hlang h hruns hlanguage
  case others =>
    intro other hother hne
    rw [payload?_of_runs hlang h hruns hother, if_neg fun hand => hne hand.1]
  case returns => exact hreturns
  case fails =>
    intro e he other hother
    rw [payload?_of_runs hlang h hruns hother, if_neg]
    rintro ⟨_, hcompletes⟩
    cases he.symm.trans (hreturns.1 hcompletes)
  case cleans =>
    intro e n hreached hentry
    -- The first call makes the directory. Where that fails the write ends with the temporary file
    -- as it was; else a later failure removes it.
    cases hruns with
    | stops => cases hreached
    | @goesOn _ _ _ d₁ _ call result ops hcall hends hruns =>
      cases hcall
      cases result with
      | error e' =>
        obtain ⟨_, _, rfl⟩ := eq_of_runs_done hruns
        exact .inl ((between_of_ends hends).1.sameAt _)
      | ok m =>
        obtain ⟨e', he'⟩ := removes_of_runs hruns hreached hentry nofun nofun
        exact .inr ⟨e', List.mem_cons_of_mem _ he'⟩

/-- Storing a payload without failures is one of the courses that it may take. -/
theorem exists_runs_finish (c : GrammarCache) (lang : String) (payload : Bytes)
    (write : CacheWrite) (d : Disk) : ∃ ops, Runs c lang payload write d ops
      (.done (write.finish c lang payload d).2) (write.finish c lang payload d).1 := by
  fun_induction finish c lang payload write d with
  | case1 d r => exact ⟨[], .stops⟩
  | case2 d w hnot hcall =>
    cases w with
    | done r => exact (hnot r rfl).elim
    | _ => cases hcall
  | case3 d w hnot call hcall d' r hperform ih =>
    obtain ⟨ops, hruns⟩ := ih
    exact ⟨(call, r) :: ops, .goesOn hcall (.performs hperform) hruns⟩

end CacheWrite

namespace GrammarCache

variable {c : GrammarCache} {lang : String} {d : Disk} {p : Place} {language : Language}

/-- What removing a payload does: nothing, or the file of the payload is removed. -/
theorem remove_cases (hlang : '/' ∉ lang.toList) (d : Disk) :
    ((c.remove lang d).1 = d ∧ ((c.remove lang d).2 = .ok () → c.payload? lang d = none)) ∨
      (c.remove lang d).2 = .ok () ∧ (∃ p, c.home? d = some p) ∧
        (DiskCall.remove (c.path lang)).Ends d (.ok 0) (c.remove lang d).1 := by
  rw [payload?_eq hlang, remove]
  -- Without the directory there is no such file; with it, the entry under the file's name decides.
  cases hhome : c.home? d with
  | none =>
    have hresolve := resolve_path (c := c) hlang d
    rw [hhome] at hresolve
    cases hpath : d.resolve (c.path lang) with
    | ok t => simp [hpath, Except.toOption] at hresolve
    | error e =>
      refine .inl ⟨?_, fun _ => rfl⟩
      rw [Disk.remove, hpath]
      cases e <;> rfl
  | some p =>
    have hremove := Disk.remove_join (isName_fileName hlang) hhome
    rw [← path_eq] at hremove
    rw [Option.bind_some, Disk.file?]
    cases hentry : d.entry? (p ++ [fileName lang]) with
    | none =>
      rw [hentry] at hremove
      rw [hremove]
      exact .inl ⟨rfl, fun _ => rfl⟩
    | some e =>
      rw [hentry] at hremove
      cases e with
      | directory =>
        rw [hremove]
        exact .inl ⟨rfl, fun h => by cases h⟩
      | file n =>
        refine .inr ⟨by rw [hremove], ⟨p, rfl⟩, .performs ?_⟩
        rw [DiskCall.perform, hremove]
        rfl

end GrammarCache

/-- A call on the cache, with what came of it. -/
inductive CacheCall where
  /-- A payload was stored, as far as that came. -/
  | write (lang : String) (payload : Bytes) (ops : List (DiskCall × Except IoError Nat))
      (reached : CacheWrite)
  /-- A payload was asked for. -/
  | read (lang : String) (result : Except IoError Bytes)
  /-- It was asked whether there is a payload. -/
  | probe (lang : String) (present : Bool)
  /-- A payload was removed, or should have been. -/
  | remove (lang : String) (result : Except IoError Unit)

namespace CacheCall

/-- What a call may make of the disk, when any operation may fail. -/
inductive Comes (c : GrammarCache) (d : Disk) : CacheCall → Disk → Prop
  /-- Storing a payload comes to one of its runs, which may break off anywhere. -/
  | writes {language : Language} {payload : Bytes} {ops : List (DiskCall × Except IoError Nat)}
      {reached : CacheWrite} {d' : Disk} : language ∈ Language.all →
      CacheWrite.Runs c language.name payload .preparing d ops reached d' →
      Comes c d (.write language.name payload ops reached) d'
  /-- What is read is what is there, or reading fails. -/
  | reads {language : Language} {result : Except IoError Bytes} : language ∈ Language.all →
      result = c.read language.name d ∨ (∃ e, result = .error e) →
      Comes c d (.read language.name result) d
  /-- What is there is found, or it is not looked at for a failure. -/
  | probes {language : Language} {present : Bool} : language ∈ Language.all →
      present = c.exists? language.name d ∨ present = false →
      Comes c d (.probe language.name present) d
  /-- The file is removed, or what stands in the way of that is told. -/
  | removes {language : Language} : language ∈ Language.all →
      Comes c d (.remove language.name (c.remove language.name d).2) (c.remove language.name d).1
  /-- It fails for another reason than that nothing is there. -/
  | removeFails {language : Language} {e : IoError} : language ∈ Language.all → e ≠ .notFound →
      Comes c d (.remove language.name (.error e)) d

/-- What calls may lead to, one after another. -/
inductive Leads (c : GrammarCache) (d₀ : Disk) : List CacheCall → Disk → Prop
  /-- No call was made yet. -/
  | starts : Leads c d₀ [] d₀
  /-- One more call comes after the others, on the disk that they have left. -/
  | calls {calls : List CacheCall} {call : CacheCall} {d d' : Disk} :
      Leads c d₀ calls d → Comes c d call d' → Leads c d₀ (calls ++ [call]) d'

/-- What is entered in the ledger at a call. -/
def record (ledger : String → Option Bytes) : CacheCall → String → Option Bytes
  | write lang payload ops _ =>
    if CacheWrite.completes ops then Function.update ledger lang (some payload) else ledger
  | remove lang (.ok ()) => Function.update ledger lang none
  | _ => ledger

/-- The ledger after calls, which begins with what could be read at first. -/
def ledger (c : GrammarCache) (d₀ : Disk) (calls : List CacheCall) : String → Option Bytes :=
  calls.foldl record fun lang => c.payload? lang d₀

/-- Whether the ledger says what a call was told. -/
def Agrees (c : GrammarCache) (d₀ : Disk) (ledger : String → Option Bytes) : CacheCall → Prop
  | read lang (.ok payload) => ledger lang = some payload
  | probe lang true => (ledger lang).isSome ∨ c.IsBlocked lang d₀
  | _ => True

/-- What the cache is to those who call it. -/
structure IsLedger (c : GrammarCache) (d₀ : Disk) (calls : List CacheCall) (d : Disk) : Prop where
  /-- A payload that is read is that of the ledger. -/
  read : ∀ language ∈ Language.all,
    (c.read language.name d).toOption = ledger c d₀ calls language.name
  /-- So is one that is there, unless a directory always was in its way. -/
  probe : ∀ language ∈ Language.all, c.exists? language.name d = true ↔
    (ledger c d₀ calls language.name).isSome ∨ c.IsBlocked language.name d₀
  /-- That was so at every call. -/
  told : ∀ before call after, calls = before ++ call :: after →
    call.Agrees c d₀ (ledger c d₀ before)
  /-- Storing a payload next changes it at once, or nothing at all. -/
  write : ∀ language ∈ Language.all, ∀ payload ops reached d',
    CacheWrite.Runs c language.name payload .preparing d ops reached d' →
    CacheWrite.IsAtomic c language.name payload d ops reached d'

/-- What is true of the disk after calls. -/
structure IsKept (c : GrammarCache) (d₀ : Disk) (ledger : String → Option Bytes) (d : Disk) :
    Prop where
  /-- No file has two names in the directory of the cache. -/
  unshared : d.IsUnshared c.Contains
  /-- Making the directory brings no payload to light. -/
  plain : ∀ language ∈ Language.all, c.IsPlain language.name d
  /-- What can be read is what the ledger says. -/
  payload : ∀ language ∈ Language.all, c.payload? language.name d = ledger language.name
  /-- Directories are in the way of the same payloads as at first. -/
  blocked : ∀ language ∈ Language.all,
    c.IsBlocked language.name d ↔ c.IsBlocked language.name d₀

variable {c : GrammarCache} {d₀ d d' : Disk} {m : String → Option Bytes} {call : CacheCall}
  {calls : List CacheCall} {language : Language}

/-- Removing a payload takes it from the ledger, or fails and leaves all as it was. -/
theorem isKept_remove (h : IsKept c d₀ m d) (hlanguage : language ∈ Language.all) :
    IsKept c d₀ (record m (.remove language.name (c.remove language.name d).2))
      (c.remove language.name d).1 := by
  have hlang := Language.no_slash hlanguage
  -- Nothing was removed, and then either the call failed or there was nothing; or the file is gone
  -- and the other names are as they were.
  rcases GrammarCache.remove_cases (c := c) hlang d with ⟨hsame, hnone⟩ | ⟨hok, ⟨p, hhome⟩, hends⟩
  · rw [hsame]
    refine ⟨h.unshared, h.plain, fun other hother => ?_, h.blocked⟩
    cases hresult : (c.remove language.name d).2 with
    | error e => exact h.payload other hother
    | ok =>
      rw [record]
      by_cases hname : other.name = language.name
      · rw [hname, Function.update_self, hnone hresult]
      · rw [Function.update_of_ne hname, h.payload other hother]
  · rw [hok]
    have heffect := hends.effect_of_ok
    have hhome' : c.home? (c.remove language.name d).1 = some p :=
      CacheWrite.home?_of_ends hends hhome
    constructor
    case unshared => exact heffect.isUnshared h.unshared trivial
    case plain => exact fun _ _ => GrammarCache.isPlain_of_home? hhome'
    case payload =>
      intro other hother
      have hslash := Language.no_slash hother
      rw [record, GrammarCache.payload?_eq_stored? hslash hhome']
      by_cases hname : other.name = language.name
      · rw [hname, Function.update_self]
        generalize (c.remove language.name d).1 = d' at heffect
        cases heffect with
        | removes hn =>
          rw [GrammarCache.stored?, Disk.file?, Disk.entry?_unset d (Disk.ne_nil_of_file hn),
            if_pos rfl]
      · rw [Function.update_of_ne hname, ← h.payload other hother,
          GrammarCache.payload?_eq_stored? hslash hhome]
        exact GrammarCache.stored?_of_avoids hslash h.unshared heffect trivial
          fun hq => hname (GrammarCache.eq_of_path hslash hlang hq)
    case blocked =>
      intro other hother
      rw [← h.blocked other hother]
      have hmakes (path : String) : DiskCall.remove (c.path language.name) ≠ .makeDirs path := by
        intro h
        cases h
      simp only [GrammarCache.IsBlocked, hhome, hhome', hends.entry?_directory_iff hmakes]

/-- One call keeps the ledger. -/
theorem isKept_of_comes (h : IsKept c d₀ m d) (hcomes : Comes c d call d') :
    IsKept c d₀ (record m call) d' := by
  cases hcomes with
  | @writes language payload ops reached _ hlanguage hruns =>
    have hlang := Language.no_slash hlanguage
    have hready : CacheWrite.IsReady c language.name payload d .preparing :=
      CacheWrite.isReady_preparing h.unshared h.plain
    have hready' := CacheWrite.isReady_of_runs hlang hready hruns
    refine ⟨hready'.unshared, hready'.plain, fun other hother => ?_, fun other hother => ?_⟩
    · rw [CacheWrite.payload?_of_runs hlang hready hruns hother, record, h.payload other hother]
      cases CacheWrite.completes ops with
      | false => simp
      | true => by_cases hname : other.name = language.name <;> simp [hname]
    · rw [CacheWrite.isBlocked_of_runs hlang hready hruns hother, h.blocked other hother]
  | reads => exact h
  | probes => exact h
  | removes hlanguage => exact isKept_remove h hlanguage
  | removeFails => exact h

/-- Calls keep the ledger one after another, by induction on the last of them. -/
theorem isKept_of_leads (hunshared : d₀.IsUnshared c.Contains)
    (hplain : ∀ language ∈ Language.all, c.IsPlain language.name d₀) (h : Leads c d₀ calls d) :
    IsKept c d₀ (ledger c d₀ calls) d := by
  induction h with
  | starts => exact ⟨hunshared, hplain, fun _ _ => rfl, fun _ _ => Iff.rfl⟩
  | calls _ hcomes ih =>
    rw [ledger, List.foldl_append]
    exact isKept_of_comes ih hcomes

/-- Who is told something by a call is told what the ledger says. -/
theorem agrees_of_comes (h : IsKept c d₀ m d) (hcomes : Comes c d call d') :
    call.Agrees c d₀ m := by
  cases hcomes with
  | @reads language result hlanguage hresult =>
    cases result with
    | error e => trivial
    | ok payload =>
      rcases hresult with hresult | ⟨e, he⟩
      · rw [Agrees, ← h.payload language hlanguage, GrammarCache.payload?, ← hresult]
        rfl
      · cases he
  | @probes language present hlanguage hpresent =>
    cases present with
    | false => trivial
    | true =>
      rcases hpresent with hpresent | hpresent
      · rw [Agrees, ← h.payload language hlanguage, ← h.blocked language hlanguage,
          ← GrammarCache.exists?_iff (Language.no_slash hlanguage)]
        exact hpresent.symm
      · cases hpresent
  | _ => trivial

theorem leads_one (h : Comes c d₀ call d) : Leads c d₀ [call] d :=
  Leads.starts.calls h

/-- Each call was made when those before it had been. -/
theorem exists_of_leads {before after : List CacheCall}
    (h : Leads c d₀ (before ++ call :: after) d) :
    ∃ d₁ d₂, Leads c d₀ before d₁ ∧ Comes c d₁ call d₂ := by
  generalize hcalls : before ++ call :: after = calls at h
  induction h generalizing after with
  | starts => cases before <;> cases hcalls
  | @calls calls call' d₁ d₂ hleads hcomes ih =>
    rcases List.eq_nil_or_concat after with rfl | ⟨after, last, rfl⟩
    · obtain ⟨rfl, rfl⟩ := List.append_inj' hcalls rfl |>.imp_right List.singleton_inj.1
      exact ⟨d₁, d₂, hleads, hcomes⟩
    · rw [List.concat_eq_append, ← List.cons_append, ← List.append_assoc] at hcalls
      exact ih (List.append_inj' hcalls rfl).1

/-- The cache holds what the ledger says, and storing a payload changes it at once or not at
    all. -/
theorem isLedger_of_leads (hunshared : d₀.IsUnshared c.Contains)
    (hplain : ∀ language ∈ Language.all, c.IsPlain language.name d₀) (h : Leads c d₀ calls d) :
    IsLedger c d₀ calls d := by
  have hkept := isKept_of_leads hunshared hplain h
  constructor
  case read => exact hkept.payload
  case probe =>
    intro language hlanguage
    rw [GrammarCache.exists?_iff (Language.no_slash hlanguage), hkept.payload language hlanguage,
      hkept.blocked language hlanguage]
  case told =>
    rintro before call after rfl
    obtain ⟨d₁, d₂, hleads, hcomes⟩ := exists_of_leads h
    exact agrees_of_comes (isKept_of_leads hunshared hplain hleads) hcomes
  case write =>
    intro language hlanguage payload ops reached d' hruns
    exact CacheWrite.isAtomic_of_runs hlanguage
      (CacheWrite.isReady_preparing hkept.unshared hkept.plain) hruns

/-- A payload is stored, found, and removed again. -/
theorem isLedger_stored_and_removed :
    let c : GrammarCache := ⟨"langs"⟩
    let stored := c.write "rust" [1] .empty
    ∃ ops, IsLedger c .empty
        [.write "rust" [1] ops (.done (.ok ())), .read "rust" (.ok [1]), .remove "rust" (.ok ())]
        (c.remove "rust" stored.1).1 ∧
      ledger c .empty [.write "rust" [1] ops (.done (.ok ()))] "rust" = some [1] := by
  intro c stored
  have hrust : (⟨"rust", [".rs"], some Query.rust⟩ : Language) ∈ Language.all := by decide
  obtain ⟨ops, hruns⟩ := CacheWrite.exists_runs_finish c "rust" [1] .preparing .empty
  have hstored : stored.2 = .ok () := by decide +kernel
  have hruns' : CacheWrite.Runs c "rust" [1] .preparing .empty ops (.done stored.2) stored.1 :=
    hruns
  rw [hstored] at hruns'
  have hplain : ∀ language ∈ Language.all, c.IsPlain language.name .empty := fun _ hlanguage =>
    GrammarCache.isPlain_of_no_up (Language.no_slash hlanguage) Disk.isTree_empty (by decide)
  refine ⟨ops, isLedger_of_leads (Disk.isUnshared_empty _) hplain ?_, ?_⟩
  · have hwrite : Leads c .empty [.write "rust" [1] ops (.done (.ok ()))] stored.1 :=
      leads_one (.writes hrust hruns')
    have hread : c.read "rust" stored.1 = .ok [1] := by decide +kernel
    have hremove : (c.remove "rust" stored.1).2 = .ok () := by decide +kernel
    exact hremove ▸ (hwrite.calls (hread ▸ .reads hrust (.inl rfl))).calls (.removes hrust)
  · have hcompletes := (CacheWrite.completes_iff hruns' nofun).2 rfl
    rw [ledger, List.foldl_cons, List.foldl_nil, record, if_pos hcompletes, Function.update_self]

/-- What is stored for one language may bring the payload of another one to light, if the way to
    the directory leads up from one that has to be made. It may also change that payload, if a
    file has two names. -/
theorem not_isLedger_of_hidden_or_shared :
    let hidden : Disk :=
      ⟨[(["c"], .directory), (["c", "tree-sitter-python.wasm"], .file 0)], [[7]], by decide⟩
    let shared : Disk :=
      ⟨[(["c"], .directory), (["c", "tree-sitter-python.wasm"], .file 0),
        (["c", "tree-sitter-rust.wasm.tmp"], .file 0)], [[7]], by decide⟩
    (hidden.IsUnshared (GrammarCache.Contains ⟨"a/../c"⟩) ∧
      ∃ ops, let calls := [.write "rust" [1] ops (.done (.ok ()))]
      let d := (GrammarCache.write ⟨"a/../c"⟩ "rust" [1] hidden).1
      Leads ⟨"a/../c"⟩ hidden calls d ∧ ¬IsLedger ⟨"a/../c"⟩ hidden calls d) ∧
    ((∀ language ∈ Language.all, GrammarCache.IsPlain ⟨"c"⟩ language.name shared) ∧
      ∃ ops, let calls := [.write "rust" [1] ops (.done (.ok ()))]
      let d := (GrammarCache.write ⟨"c"⟩ "rust" [1] shared).1
      Leads ⟨"c"⟩ shared calls d ∧ ¬IsLedger ⟨"c"⟩ shared calls d) := by
  intro hidden shared
  have hrust : (⟨"rust", [".rs"], some Query.rust⟩ : Language) ∈ Language.all := by decide
  have hpython : (⟨"python", [".py", ".pyi"], some Query.python⟩ : Language) ∈ Language.all := by
    decide
  -- Storing the one payload is all that happens, and then the other one is not what it was.
  have hbreaks {c : GrammarCache} {d : Disk} (hok : (c.write "rust" [1] d).2 = .ok ())
      (hne : c.payload? "python" (c.write "rust" [1] d).1 ≠ c.payload? "python" d) :
      ∃ ops, let calls := [.write "rust" [1] ops (.done (.ok ()))]
        Leads c d calls (c.write "rust" [1] d).1 ∧
          ¬IsLedger c d calls (c.write "rust" [1] d).1 := by
    obtain ⟨ops, hruns⟩ := CacheWrite.exists_runs_finish c "rust" [1] .preparing d
    have hruns' : CacheWrite.Runs c "rust" [1] .preparing d ops (.done (c.write "rust" [1] d).2)
      (c.write "rust" [1] d).1 := hruns
    rw [hok] at hruns'
    refine ⟨ops, leads_one (.writes hrust hruns'), fun hledger => hne ?_⟩
    have hread := hledger.read _ hpython
    rw [ledger, List.foldl_cons, List.foldl_nil, record] at hread
    split at hread
    · rwa [Function.update_of_ne (by decide)] at hread
    · exact hread
  refine ⟨⟨?_, hbreaks (by decide +kernel) (by decide +kernel)⟩, ?_,
    hbreaks (by decide +kernel) (by decide +kernel)⟩
  · exact Disk.isUnshared_of_entries _ (by decide)
  · exact fun _ _ => GrammarCache.isPlain_of_home? (p := ["c"]) (by decide +kernel)

end CacheCall

end SymbolPaths
