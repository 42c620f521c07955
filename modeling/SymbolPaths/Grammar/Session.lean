import SymbolPaths.Grammar.Loader

/-!
# Sessions

A loader at work: with an engine, a network, a disk and a clock that counts
milliseconds. The engine and the disk answer at once, so a load goes on until
it has to wait for a download or for a delay, and is woken when that is over;
whichever load is due first is woken first. A load that is cancelled while it
waits for a download or a delay is woken at once.

* `Session.start` starts a load, `Session.await` waits until it is over, and
  `Session.sleep` lets time go by;
* `Session.load` loads a grammar and waits for it;
* `Session.abort` cancels the load of a language and drops its grammar.
-/

namespace SymbolPaths

/-- What a loader works with. -/
structure Surroundings where
  loader : Loader
  /-- What comes of starting the engine. -/
  engine : Except AcquireError Unit
  /-- What comes of a download, by the number of downloads begun before it and its
      address. -/
  network : Nat → String → Retry.Call AcquireError Bytes

/-- A load in time: it is woken at some moment, with what is then to be seen, or it
    is over since some moment. -/
inductive Task where
  | waiting (load : Load) (due : Nat) (signal : Retry.Signal AcquireError Bytes)
  | done (result : Except AcquireError GrammarHandle) (time : Nat)

namespace Task

/-- Whether a load is over. -/
def isDone : Task → Bool
  | done _ _ => true
  | waiting _ _ _ => false

/-- When a load is to be woken. -/
def due? : Task → Option Nat
  | waiting _ due _ => some due
  | done _ _ => none

end Task

/-- A loader at work. -/
structure Session where
  state : LoaderState
  disk : Disk
  /-- The milliseconds since the beginning. -/
  clock : Nat
  /-- The addresses of the downloads that were begun, in order. -/
  urls : List String
  /-- The loads by their numbers. -/
  tasks : List Task

namespace Session

/-- A session that begins with a disk. -/
def ofDisk (d : Disk) : Session :=
  { state := .initial, disk := d, clock := 0, urls := [], tasks := [] }

/-- What a load meets that waits for something: a reply at once, or one that comes
    later. -/
inductive Meeting where
  | now (reply : LoadReply)
  | later (due : Nat) (signal : Retry.Signal AcquireError Bytes)

/-- What takes some time. -/
def takes (s : Session) (duration : Nat) (signal : Retry.Signal AcquireError Bytes) : Meeting :=
  if duration = 0 then .now (.fetch signal) else .later (s.clock + duration) signal

/-- Serves a load that waits for something. -/
def serve (env : Surroundings) (s : Session) (lang : String) : LoadWait → Session × Meeting
  | .engine => (s, .now (.engine env.engine))
  | .probe _ =>
    (s, .now (.probed (env.loader.cache.any fun cache => cache.exists? lang s.disk)))
  | .read _ =>
    (s, .now (.read (match env.loader.cache with
      | some cache => cache.read lang s.disk
      | none => .error .notFound)))
  | .fetch _ (.calling _) =>
    let url := env.loader.source.location lang
    let call := env.network s.urls.length url
    ({ s with urls := s.urls ++ [url] }, s.takes call.duration (.returned call.outcome))
  | .fetch _ (.waiting retry) =>
    (s, s.takes (env.loader.policy.delayFor retry).milliseconds .elapsed)
  | .store _ payload write =>
    match env.loader.cache.bind fun cache => write.call? cache lang payload with
    | none => (s, .now (.disk (.ok 0)))
    | some call =>
      let (disk, result) := call.perform s.disk
      ({ s with disk }, .now (.disk result))

/-- Carries a load on until it waits for what comes later, or is over, or has taken
    as many steps as given. -/
def proceed (env : Surroundings) : Nat → Session → Load → Session × Task
  | _, s, .finished result => (s, .done result s.clock)
  | 0, s, load => (s, .waiting load s.clock .idle)
  | fuel + 1, s, .waiting language wait =>
    match s.serve env language.name wait with
    | (s, .later due signal) => (s, .waiting (.waiting language wait) due signal)
    | (s, .now reply) =>
      let (state, load) := Loader.resume env.loader s.state (.waiting language wait) reply
      proceed env fuel { s with state } load

/-- A number of steps in which every load comes to wait: two for each call, and
    some for the engine and the cache. -/
def steps (env : Surroundings) : Nat := 2 * env.loader.policy.retries.toNat + 16

/-- Wakes a load, if it waits, with what is to be seen. -/
def wake (env : Surroundings) (s : Session) (number : Nat)
    (signal : Retry.Signal AcquireError Bytes) : Session :=
  match s.tasks[number]? with
  | some (.waiting load _ _) =>
    let (state, load) := Loader.resume env.loader s.state load (.fetch signal)
    let (s, task) := proceed env (steps env) { s with state } load
    { s with tasks := s.tasks.set number task }
  | _ => s

/-- The load that is to be woken first, when, and with what. -/
def next? (s : Session) : Option (Nat × Nat × Retry.Signal AcquireError Bytes) :=
  let waiting := s.tasks.zipIdx.filterMap fun (task, number) =>
    match task with
    | .waiting _ due signal => some (number, due, signal)
    | .done _ _ => none
  waiting.foldl
    (fun best entry => match best with
      | none => some entry
      | some b => if entry.2.1 < b.2.1 then some entry else some b) none

/-- Wakes loads when they are due, as long as `keep` holds of the session and of
    the moment, but at most `fuel` times. -/
def run (env : Surroundings) (keep : Session → Nat → Bool) : Nat → Session → Session
  | 0, s => s
  | fuel + 1, s =>
    match s.next? with
    | none => s
    | some (number, due, signal) =>
      if keep s due then run env keep fuel (wake env { s with clock := due } number signal) else s

/-- A number of times in which every load is woken for the last time. -/
def wakes (env : Surroundings) (s : Session) : Nat :=
  s.tasks.length * (2 * env.loader.policy.retries.toNat + 4)

/-- Lets time go by. -/
def sleep (env : Surroundings) (s : Session) (duration : Nat) : Session :=
  let time := s.clock + duration
  { run env (fun _ due => due ≤ time) (wakes env s) s with clock := time }

/-- Starts a load and tells its number. -/
def start (env : Surroundings) (s : Session) (lang : String) : Session × Nat :=
  let (s, task) := proceed env (steps env) s (Loader.begin s.state lang)
  ({ s with tasks := s.tasks ++ [task] }, s.tasks.length)

/-- Waits until a load is over. -/
def await (env : Surroundings) (s : Session) (number : Nat) : Session :=
  run env (fun s _ => !(s.tasks[number]?.any Task.isDone)) (wakes env s) s

/-- What came of a load, and when. -/
def outcome? (s : Session) (number : Nat) : Option (Except AcquireError GrammarHandle × Nat) :=
  match s.tasks[number]? with
  | some (.done result time) => some (result, time)
  | _ => none

/-- Loads the grammar of a language. -/
def load (env : Surroundings) (s : Session) (lang : String) :
    Session × Except AcquireError GrammarHandle :=
  let (s, number) := start env s lang
  let s := await env s number
  match s.outcome? number with
  | some (result, _) => (s, result)
  | none => (s, .error (.aborted lang))

/-- Starts the engine. -/
def bootstrap (env : Surroundings) (s : Session) : Session × Except AcquireError Unit :=
  match env.engine with
  | .ok () => ({ s with state := { s.state with ready := true } }, .ok ())
  | .error e => (s, .error e)

/-- Whether a load waits for a download or a delay although it was cancelled. -/
def isInterrupted (s : Session) : Task → Bool
  | .waiting (.waiting _ (.fetch flight _)) _ _ => s.state.isCancelled flight
  | _ => false

/-- Cancels the load of a language and drops its grammar. Tells whether there was
    anything to cancel or drop. -/
def abort (env : Surroundings) (s : Session) (lang : String) : Session × Bool :=
  let (state, any) := s.state.abort lang
  let s := { s with state }
  let interrupted := s.tasks.zipIdx.filterMap fun (task, number) =>
    if s.isInterrupted task then some number else none
  (interrupted.foldl (fun s number => wake env s number .idle) s, any)

end Session

end SymbolPaths
