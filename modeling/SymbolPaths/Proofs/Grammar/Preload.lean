import SymbolPaths.Grammar.Preload
import SymbolPaths.Proofs.Grammar.Session

/-!
# Loading ahead

However the loads of a list of languages end, the next one begins when one is over:
each language of the list is loaded once, in order, and it is told what came of it.
That is true of any loads, also where others act between or during them. Where nobody
else does, the grammars that are there in the end are those of before and those that
were loaded.

* `interleave`: two lists in one, as the outcomes say;
* `IsThorough`: what loading a list ahead comes to;
* `Session.isByItself_load`: in an idle session (`Session.IsIdle`) nobody else acts;
* `isThorough_preload`: loading ahead comes to that.

The loads of a list are a fold, and so are the two lists of the report and the numbers of the
progress events; everything is by induction on the languages, for any way of loading that leads
from a state to a state and an outcome. Only then the sessions come in, to say that a load that
nobody interferes with is one that `Loader.Loads` speaks of.
-/

namespace SymbolPaths

open Loader

/-! ### The lists of a report -/

/-- Two lists in one: where it says so, the next is of the first, else of the second.
    What is left over comes after that. -/
def interleave {α : Type} : List Bool → List α → List α → List α
  | true :: flags, x :: xs, ys => x :: interleave flags xs ys
  | false :: flags, xs, y :: ys => y :: interleave flags xs ys
  | _, xs, ys => xs ++ ys

namespace PreloadReport

variable {event : PreloadEvent} {events : List PreloadEvent} {lang : String}

theorem ofEvents_cons_ok (h : event.outcome = .ok ()) : ofEvents (event :: events) =
    { ofEvents events with loaded := event.lang :: (ofEvents events).loaded } := by
  simp [ofEvents, h]

theorem ofEvents_cons_error {cause : AcquireError} (h : event.outcome = .error cause) :
    ofEvents (event :: events) =
      { ofEvents events with failed := (event.lang, cause) :: (ofEvents events).failed } := by
  simp [ofEvents, h]

/-- By the outcomes, the loaded and the failed languages of a report make up all that was
    told. -/
theorem interleave_ofEvents {α : Type} (ok : String → α) (error : String × AcquireError → α)
    (events : List PreloadEvent) :
    interleave (events.map (·.outcome.isOk)) ((ofEvents events).loaded.map ok)
        ((ofEvents events).failed.map error) =
      events.map fun event => match event.outcome with
        | .ok () => ok event.lang
        | .error cause => error (event.lang, cause) := by
  induction events with
  | nil => rfl
  | cons event events ih =>
    rw [List.map_cons, List.map_cons, ← ih]
    cases h : event.outcome with
    | ok => rw [ofEvents_cons_ok h]; rfl
    | error cause => rw [ofEvents_cons_error h]; rfl

/-- The languages reported as loaded are those of which that was told. -/
theorem mem_loaded_ofEvents_cons :
    lang ∈ (ofEvents (event :: events)).loaded ↔
      (lang = event.lang ∧ event.outcome.isOk) ∨ lang ∈ (ofEvents events).loaded := by
  cases h : event.outcome with
  | ok => rw [ofEvents_cons_ok h]; simp [Except.isOk, Except.toBool]
  | error cause => rw [ofEvents_cons_error h]; simp [Except.isOk, Except.toBool]

/-- A report is complete exactly if it was told of no failure. -/
theorem isComplete_ofEvents (events : List PreloadEvent) :
    (ofEvents events).isComplete ↔ ∀ event ∈ events, event.outcome.isOk := by
  induction events with
  | nil => simp [ofEvents, isComplete]
  | cons event events ih =>
    rw [List.forall_mem_cons, ← ih]
    cases h : event.outcome with
    | ok => rw [ofEvents_cons_ok h]; simp [isComplete, Except.isOk, Except.toBool]
    | error cause => rw [ofEvents_cons_error h]; simp [isComplete, Except.isOk, Except.toBool]

end PreloadReport

/-! ### The loads of a list -/

section

variable {σ : Type} (load : σ → String → σ × Except AcquireError GrammarHandle)

/-- Where the loads of a list of languages lead, one after another. -/
def stateAfter (s : σ) (langs : List String) : σ := langs.foldl (fun s lang => (load s lang).1) s

/-- Each language is loaded in the state that those before it lead to, and is told of with its
    number. -/
theorem preloadFrom_eq (total completed : Nat) (langs : List String) (s : σ) :
    preloadFrom load total completed langs s =
      (stateAfter load s langs, langs.mapIdx fun i lang =>
        { completed := completed + i + 1
          total
          lang
          outcome := (load (stateAfter load s (langs.take i)) lang).2.map fun _ => () }) := by
  induction langs generalizing completed s with
  | nil => rfl
  | cons lang langs ih =>
    simp only [preloadFrom, ih, List.mapIdx_cons, List.take_zero, List.take_succ_cons,
      stateAfter, List.foldl_nil, List.foldl_cons, Nat.add_zero, Nat.add_right_comm completed 1,
      ← Nat.add_assoc]

/-- All languages of the list are told of, in its order. -/
theorem map_lang_preloadFrom (total completed : Nat) (langs : List String) (s : σ) :
    (preloadFrom load total completed langs s).2.map (·.lang) = langs := by
  induction langs generalizing completed s with
  | nil => rfl
  | cons lang langs ih => simp only [preloadFrom, List.map_cons, ih]

/-- Whether, as long as something is true of the surroundings, a load there is by itself,
    and it remains true. -/
structure IsByItself (env : Loader) (view : σ → LoaderState) (keep : σ → Prop) : Prop where
  /-- A load there is one that nobody interferes with. -/
  loads : ∀ s lang, keep s → Loads env (view s) lang (view (load s lang).1) (load s lang).2
  /-- The surroundings are as they should be when it is over. -/
  keeps : ∀ s lang, keep s → keep (load s lang).1

/-- What loading a list of languages ahead comes to. -/
structure IsThorough (s : σ) (langs : List String) (s' : σ) (events : List PreloadEvent) :
    Prop where
  /-- Each language is loaded once, and in order. -/
  state_eq : s' = stateAfter load s langs
  /-- After each it is told how many are done, of how many, which it was, and what came
      of it. -/
  events_eq : events = langs.mapIdx fun i lang =>
    { completed := i + 1
      total := langs.length
      lang
      outcome := (load (stateAfter load s (langs.take i)) lang).2.map fun _ => () }
  /-- By the outcomes, the loaded and the failed languages make up the list. -/
  interleave_eq : interleave (events.map (·.outcome.isOk)) (PreloadReport.ofEvents events).loaded
    ((PreloadReport.ofEvents events).failed.map (·.1)) = langs
  /-- The failed ones are reported with the causes that were told. -/
  interleave_outcomes : interleave (events.map (·.outcome.isOk))
    ((PreloadReport.ofEvents events).loaded.map fun lang => (lang, .ok ()))
    ((PreloadReport.ofEvents events).failed.map fun (lang, cause) => (lang, .error cause)) =
      events.map fun event => (event.lang, event.outcome)
  /-- The report is complete if no load has failed. -/
  isComplete_iff : (PreloadReport.ofEvents events).isComplete ↔
    ∀ event ∈ events, event.outcome.isOk
  /-- Where the loads are by themselves, the grammars that are there are those of before
      and the loaded ones, and the list of loads under way is as before. -/
  alone : ∀ {env : Loader} {view : σ → LoaderState} {keep : σ → Prop},
    IsByItself load env view keep → keep s →
      keep s' ∧
      (∀ lang, lang ∈ (view s').loaded.names ↔
        lang ∈ (view s).loaded.names ∨ lang ∈ (PreloadReport.ofEvents events).loaded) ∧
      ∀ lang, (view s').inFlight.get? lang = (view s).inFlight.get? lang

variable {load} {env : Loader} {view : σ → LoaderState} {keep : σ → Prop} {s : σ}

/-- What is true of the surroundings stays so, load after load. -/
theorem IsByItself.keep_stateAfter (h : IsByItself load env view keep) (hs : keep s)
    (langs : List String) : keep (stateAfter load s langs) := by
  induction langs generalizing s with
  | nil => exact hs
  | cons lang langs ih => exact ih (h.keeps s lang hs)

/-- When all loads are over, those are under way that were before. -/
theorem IsByItself.get?_inFlight (h : IsByItself load env view keep) (hs : keep s)
    (langs : List String) (other : String) :
    (view (stateAfter load s langs)).inFlight.get? other = (view s).inFlight.get? other := by
  induction langs generalizing s with
  | nil => rfl
  | cons lang langs ih =>
    exact (ih (h.keeps s lang hs)).trans ((h.loads s lang hs).get?_inFlight other)

/-- The grammars that are there in the end were there before, or their languages are told of as
    loaded. -/
theorem IsByItself.has_iff (h : IsByItself load env view keep) (hs : keep s)
    (total completed : Nat) (langs : List String) (other : String) :
    let after := preloadFrom load total completed langs s
    (view after.1).has other ↔
      (view s).has other ∨ other ∈ (PreloadReport.ofEvents after.2).loaded := by
  induction langs generalizing s completed with
  | nil => simp [preloadFrom, PreloadReport.ofEvents]
  | cons lang langs ih =>
    have hsame : ((load s lang).2.map fun _ => ()).isOk = (load s lang).2.isOk := by
      cases (load s lang).2 <;> rfl
    simp only [preloadFrom]
    rw [PreloadReport.mem_loaded_ofEvents_cons, hsame, ← or_assoc,
      ← (h.loads s lang hs).has_iff other]
    exact ih (h.keeps s lang hs) (completed + 1)

/-- Whatever the loads are, loading a list ahead comes to that. -/
theorem isThorough (load : σ → String → σ × Except AcquireError GrammarHandle) (s : σ)
    (langs : List String) :
    IsThorough load s langs (preload load s langs).1 (preload load s langs).2 where
  state_eq := by rw [preload, preloadFrom_eq]
  events_eq := by simp only [preload, preloadFrom_eq, Nat.zero_add]
  interleave_eq := by
    have h := PreloadReport.interleave_ofEvents id (·.1) (preload load s langs).2
    rw [List.map_id] at h
    refine h.trans (Eq.trans (List.map_congr_left fun event _ => ?_)
      (map_lang_preloadFrom load langs.length 0 langs s))
    cases event.outcome <;> rfl
  interleave_outcomes := by
    rw [PreloadReport.interleave_ofEvents]
    refine List.map_congr_left fun event _ => ?_
    cases h : event.outcome <;> rfl
  isComplete_iff := PreloadReport.isComplete_ofEvents _
  alone := fun {env view keep} h hs => by
    refine ⟨?_, fun lang => ?_, fun lang => ?_⟩
    · rw [preload, preloadFrom_eq]
      exact h.keep_stateAfter hs langs
    · rw [Table.mem_names, Table.mem_names]
      exact h.has_iff hs langs.length 0 langs lang
    · rw [preload, preloadFrom_eq]
      exact h.get?_inFlight hs langs lang

end

/-! ### Sessions -/

namespace Session

/-- Whether nobody uses the loader of a session: all loads are over, and none is under
    way. -/
structure IsIdle (s : Session) : Prop where
  /-- All loads are over. -/
  tasks_done : ∀ task ∈ s.tasks, task.isDone
  /-- No language is being loaded. -/
  isAcquiring_eq : ∀ lang, s.state.isAcquiring lang = false

/-- In an idle session a load is by itself, and the session is idle again after it. -/
theorem isByItself_load (env : Surroundings) :
    IsByItself (Session.load env) env.loader Session.state IsIdle where
  loads s lang hs := (loads_load env lang hs.tasks_done).1
  keeps s lang hs := by
    obtain ⟨hloads, hdone⟩ := loads_load env lang hs.tasks_done
    refine ⟨hdone, fun other => ?_⟩
    rw [LoaderState.isAcquiring_eq_false, hloads.get?_inFlight, ← LoaderState.isAcquiring_eq_false]
    exact hs.isAcquiring_eq other

end Session

/-- However the loads end, a list of languages is loaded ahead from its first to its
    last, and reported in full; and if nobody else uses the loader of the session, the
    grammars that are there in the end are those of before and the loaded ones, and no
    load is under way. -/
theorem isThorough_preload :
    (∀ {σ : Type} (load : σ → String → σ × Except AcquireError GrammarHandle) (s : σ)
      (langs : List String),
      IsThorough load s langs (preload load s langs).1 (preload load s langs).2) ∧
    ∀ (env : Surroundings) (s : Session) (langs : List String),
      let after := s.preload env langs
      IsThorough (Session.load env) s langs after.1 after.2 ∧
        (s.IsIdle → after.1.IsIdle ∧ ∀ lang, lang ∈ after.1.state.loaded.names ↔
          lang ∈ s.state.loaded.names ∨ lang ∈ (PreloadReport.ofEvents after.2).loaded) := by
  refine ⟨isThorough, fun env s langs => ⟨isThorough (Session.load env) s langs, fun hs => ?_⟩⟩
  obtain ⟨hidle, hnames, -⟩ :=
    (isThorough (Session.load env) s langs).alone (Session.isByItself_load env) hs
  exact ⟨hidle, hnames⟩

/-- The first download fails and is repeated, and what is downloaded is a payload for
    one language: that one is loaded, and found when it comes again, an unknown language
    is not loaded, and another one neither. -/
theorem names_preload_of_payload :
    let env : Surroundings :=
      { loader := { source := .standard, cache := none, policy := .standard }
        engine := .ok ()
        network := fun number url => ⟨20, if number = 0 then .error (.network url "reset") else
          .ok (Text.encode "grammar:python")⟩ }
    let start := Session.ofDisk .empty
    let after := start.preload env ["python", "cobol", "rust", "python"]
    start.IsIdle ∧ after.1.IsIdle ∧
      (PreloadReport.ofEvents after.2).failed =
        [("cobol", .unsupportedLanguage "cobol"),
          ("rust", .invalidGrammar "rust" "unexpected payload")] ∧
      ∀ lang, lang ∈ after.1.state.loaded.names ↔ lang = "python" := by
  intro env start after
  have hidle : start.IsIdle := ⟨fun _ h => absurd h List.not_mem_nil, fun _ => rfl⟩
  obtain ⟨hafter, hnames⟩ :=
    (isThorough_preload.2 env start ["python", "cobol", "rust", "python"]).2 hidle
  have hreport : (PreloadReport.ofEvents after.2).loaded = ["python", "python"] := by
    decide +kernel
  refine ⟨hidle, hafter, by decide +kernel, fun lang => ?_⟩
  rw [hnames, hreport]
  simp [start, Session.ofDisk, LoaderState.initial, Table.names, Table.empty]

end SymbolPaths
