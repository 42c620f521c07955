import SymbolPaths.Grammar.Cache
import SymbolPaths.Grammar.Handle
import SymbolPaths.Grammar.Retry
import SymbolPaths.Grammar.Source
import SymbolPaths.Table

/-!
# The loader

The loader acquires the grammars of languages and keeps them. Loads run side by
side; each goes on until it has to wait for something and is resumed with the
reply to it, and in between other loads may run, and grammars may be dropped.

A load

1. fails if it does not know the language, and ends if the grammar is there;
2. waits for the engine;
3. at once either finds the grammar there, or finds another load of the
   language under way and fails, or enters itself under a fresh number;
4. looks for the payload in the cache and reads it, or else downloads it with
   retries and stores it; where storing fails once it is not tried again;
5. makes the grammar, and keeps it unless it was cancelled meanwhile.

Whichever way it ends, it leaves the list of loads under way, where its number
tells it from a later load of the same language.

* `Loader.begin` starts a load and `Loader.resume` carries it on;
* `LoaderState.abort` cancels the load of a language and drops its grammar;
* `LoaderState.release` is what a load does when it ends or is given up.
-/

namespace SymbolPaths

/-- How the loader is set up. -/
structure Loader where
  source : GrammarSource
  cache : Option GrammarCache
  policy : RetryPolicy
  /-- What the engine makes of a payload for a language. -/
  make : String → Bytes → Except AcquireError Grammar := Grammar.load
  deriving Inhabited

/-- What the loader remembers. -/
structure LoaderState where
  /-- Whether the engine is up. -/
  ready : Bool
  /-- The grammars that are there. -/
  loaded : Table GrammarHandle
  /-- The numbers of the loads under way, by their languages. -/
  inFlight : Table Nat
  /-- The numbers of the loads that were cancelled. -/
  cancelled : List Nat
  /-- The languages whose grammars are not to be stored any more. -/
  skipPersist : List String
  /-- The last number given to a load. It is not bounded: a counter of 64 bits
      would start over after 18446744073709551616 loads, for which one load in
      every nanosecond would have to be begun for more than 500 years. -/
  lastFlight : Nat
  deriving DecidableEq, Repr, Inhabited

namespace LoaderState

/-- Nothing was loaded yet. -/
def initial : LoaderState :=
  { ready := false, loaded := .empty, inFlight := .empty, cancelled := [], skipPersist := [],
    lastFlight := 0 }

/-- Whether the grammar of a language is there. -/
def has (s : LoaderState) (lang : String) : Bool := s.loaded.contains lang

/-- Whether a load of a language is under way. -/
def isAcquiring (s : LoaderState) (lang : String) : Bool := s.inFlight.contains lang

/-- Whether a load was cancelled. -/
def isCancelled (s : LoaderState) (flight : Nat) : Bool := s.cancelled.contains flight

/-- Enters a load of a language under a fresh number. -/
def register (s : LoaderState) (lang : String) : LoaderState :=
  { s with lastFlight := s.lastFlight + 1, inFlight := s.inFlight.put lang (s.lastFlight + 1) }

/-- Takes a load off the list, if the entry of its language is its own. -/
def release (s : LoaderState) (lang : String) (flight : Nat) : LoaderState :=
  if s.inFlight.get? lang = some flight then { s with inFlight := s.inFlight.erase lang } else s

/-- Cancels the load of a language and drops its grammar. Tells whether there was
    anything to cancel or drop. -/
def abort (s : LoaderState) (lang : String) : LoaderState × Bool :=
  let cancelled := match s.inFlight.get? lang with
    | some flight => flight :: s.cancelled
    | none => s.cancelled
  ({ s with inFlight := s.inFlight.erase lang, cancelled, loaded := s.loaded.erase lang },
    s.isAcquiring lang || s.has lang)

end LoaderState

/-- What a load waits for. From the entry in the list on it has a number. -/
inductive LoadWait where
  /-- The engine. -/
  | engine
  /-- Whether the payload is in the cache. -/
  | probe (flight : Nat)
  /-- The payload in the cache. -/
  | read (flight : Nat)
  /-- A download, or the delay before it is tried again. -/
  | fetch (flight : Nat) (phase : Retry.Phase)
  /-- An operation in storing the payload. -/
  | store (flight : Nat) (payload : Bytes) (write : CacheWrite)

/-- A load. -/
inductive Load where
  | waiting (language : Language) (wait : LoadWait)
  | finished (result : Except AcquireError GrammarHandle)

/-- The reply to what a load waits for. -/
inductive LoadReply where
  | engine (result : Except AcquireError Unit)
  | probed (present : Bool)
  | read (result : Except IoError Bytes)
  | fetch (signal : Retry.Signal AcquireError Bytes)
  | disk (result : Except IoError Nat)

namespace Load

/-- The number of a load that is entered in the list. -/
def flight? : Load → Option Nat
  | waiting _ .engine => none
  | waiting _ (.probe flight) => some flight
  | waiting _ (.read flight) => some flight
  | waiting _ (.fetch flight _) => some flight
  | waiting _ (.store flight _ _) => some flight
  | finished _ => none

/-- Whether a load is over. -/
def isFinished : Load → Bool
  | finished _ => true
  | waiting _ _ => false

end Load

namespace Loader

/-- Starts a load. -/
def begin (s : LoaderState) (lang : String) : Load :=
  match Language.find? lang with
  | none => .finished (.error (.unsupportedLanguage lang))
  | some language =>
    match s.loaded.get? lang with
    | some handle => .finished (.ok handle)
    | none => .waiting language .engine

/-- Ends a load that is entered in the list. -/
def conclude (s : LoaderState) (lang : String) (flight : Nat)
    (result : Except AcquireError GrammarHandle) : LoaderState × Load :=
  (s.release lang flight, .finished result)

/-- Makes the grammar of the payload and keeps it, unless the load was
    cancelled. -/
def commit (env : Loader) (s : LoaderState) (language : Language) (flight : Nat)
    (payload : Bytes) : LoaderState × Load :=
  let lang := language.name
  if s.isCancelled flight then conclude s lang flight (.error (.aborted lang))
  else match env.make lang payload with
    | .error e => conclude s lang flight (.error e)
    | .ok grammar =>
      let handle : GrammarHandle := { language, grammar }
      conclude { s with loaded := s.loaded.put lang handle } lang flight (.ok handle)

/-- Stores a downloaded payload if it is to be stored, and goes on with it. -/
def persist (env : Loader) (s : LoaderState) (language : Language) (flight : Nat)
    (payload : Bytes) : LoaderState × Load :=
  if env.cache.isNone || s.skipPersist.contains language.name then
    commit env s language flight payload
  else (s, .waiting language (.store flight payload .preparing))

/-- Goes on with what became of a download. -/
def download (env : Loader) (s : LoaderState) (language : Language) (flight : Nat)
    (progress : Retry.Progress AcquireError Bytes) : LoaderState × Load :=
  match progress with
  | .on phase => (s, .waiting language (.fetch flight phase))
  | .done (.ok payload) => persist env s language flight payload
  | .done .aborted => conclude s language.name flight (.error (.aborted language.name))
  | .done (.failed e) => conclude s language.name flight (.error e)

/-- Begins the download of a load that is entered in the list. -/
def beginDownload (env : Loader) (s : LoaderState) (language : Language) (flight : Nat) :
    LoaderState × Load :=
  download env s language flight (Retry.begin (s.isCancelled flight))

/-- Enters a load in the list, unless there is nothing left to do or another load
    is at it. -/
def enter (env : Loader) (s : LoaderState) (language : Language) : LoaderState × Load :=
  let lang := language.name
  match s.loaded.get? lang with
  | some handle => (s, .finished (.ok handle))
  | none =>
    if s.isAcquiring lang then (s, .finished (.error (.inProgress lang)))
    else
      let s := s.register lang
      if env.cache.isSome then (s, .waiting language (.probe s.lastFlight))
      else beginDownload env s language s.lastFlight

/-- Carries a load on with the reply to what it waits for. Any other reply leaves
    it waiting. -/
def resume (env : Loader) (s : LoaderState) (load : Load) (reply : LoadReply) :
    LoaderState × Load :=
  match load, reply with
  | .waiting _ .engine, .engine (.error e) => (s, .finished (.error e))
  | .waiting language .engine, .engine (.ok ()) => enter env { s with ready := true } language
  | .waiting language (.probe flight), .probed present =>
    if present then (s, .waiting language (.read flight))
    else beginDownload env s language flight
  | .waiting language (.read flight), .read (.ok payload) => commit env s language flight payload
  | .waiting language (.read flight), .read (.error _) => beginDownload env s language flight
  | .waiting language (.fetch flight phase), .fetch signal =>
    download env s language flight
      (Retry.step env.policy AcquireError.isRetryable (s.isCancelled flight) phase signal)
  | .waiting language (.store flight payload write), .disk result =>
    match write.next result with
    | .done (.ok ()) => commit env s language flight payload
    | .done (.error _) =>
      commit env { s with skipPersist := language.name :: s.skipPersist } language flight payload
    | write => (s, .waiting language (.store flight payload write))
  | load, _ => (s, load)

/-- Gives a load up, wherever it is. -/
def drop (s : LoaderState) (load : Load) : LoaderState :=
  match load, load.flight? with
  | .waiting language _, some flight => s.release language.name flight
  | _, _ => s

end Loader

end SymbolPaths
