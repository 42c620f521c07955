import SymbolPaths.Grammar.Session

/-!
# Loading ahead

The grammars of a list of languages are loaded one after another, and after
each it is told what became of it. A failure does not stop the others. What one
load does to the surroundings is left open: others may act there meanwhile.

* `preload` loads them and lists what was told, and `Session.preload` does so in a
  session;
* `PreloadReport.ofEvents` sums it up.
-/

namespace SymbolPaths

/-- What is told after a language of the list. -/
structure PreloadEvent where
  /-- The number of languages that are done, this one included. -/
  completed : Nat
  /-- The number of all languages. -/
  total : Nat
  lang : String
  outcome : Except AcquireError Unit

/-- What became of the languages of a list. -/
structure PreloadReport where
  loaded : List String
  failed : List (String × AcquireError)
  deriving DecidableEq, Repr, Inhabited

namespace PreloadReport

/-- Sums up what was told. -/
def ofEvents (events : List PreloadEvent) : PreloadReport :=
  { loaded := events.filterMap fun e => match e.outcome with
      | .ok () => some e.lang
      | .error _ => none
    failed := events.filterMap fun e => match e.outcome with
      | .ok () => none
      | .error cause => some (e.lang, cause) }

/-- Whether every language was loaded. -/
def isComplete (r : PreloadReport) : Bool := r.failed.isEmpty

end PreloadReport

section

variable {σ : Type} (load : σ → String → σ × Except AcquireError GrammarHandle)

/-- Loads the languages that are left, after `completed` others. -/
def preloadFrom (total : Nat) : Nat → List String → σ → σ × List PreloadEvent
  | _, [], s => (s, [])
  | completed, lang :: langs, s =>
    let (s, result) := load s lang
    let event : PreloadEvent :=
      { completed := completed + 1, total, lang, outcome := result.map fun _ => () }
    let (s, events) := preloadFrom total (completed + 1) langs s
    (s, event :: events)

/-- Loads the grammars of languages one after another. -/
def preload (s : σ) (langs : List String) : σ × List PreloadEvent :=
  preloadFrom load langs.length 0 langs s

end

/-- Loads the grammars of languages one after another in a session. -/
def Session.preload (env : Surroundings) (s : Session) (langs : List String) :
    Session × List PreloadEvent :=
  SymbolPaths.preload (Session.load env) s langs

end SymbolPaths
