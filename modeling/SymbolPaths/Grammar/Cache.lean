import SymbolPaths.Disk.Basic

/-!
# The grammar cache

A directory with one file for each grammar that was stored. Storing goes
through a temporary file, which is renamed when it is complete, so that the
file of a grammar is never half written. It takes several operations on the
disk, one after another; others may act on the disk between them.

* `CacheWrite.call?` and `CacheWrite.next`: the operation that comes next, and
  what becomes of the writing once it is known how that ended;
* `GrammarCache.write`: all of them at once.
-/

namespace SymbolPaths

/-- A directory of grammars. -/
structure GrammarCache where
  dir : String
  deriving DecidableEq, Repr, Inhabited

namespace GrammarCache

/-- The file of the grammar of a language. -/
def path (c : GrammarCache) (lang : String) : String :=
  FilePath.join c.dir ("tree-sitter-" ++ lang ++ ".wasm")

/-- The file that it is written into first. -/
def tempPath (c : GrammarCache) (lang : String) : String := c.path lang ++ ".tmp"

end GrammarCache

/-- An operation on the disk. -/
inductive DiskCall where
  | makeDirs (path : String)
  | create (path : String)
  | write (number offset : Nat) (bytes : Bytes)
  | sync (number : Nat)
  | rename (source target : String)
  | remove (path : String)
  deriving DecidableEq, Repr, Inhabited

namespace DiskCall

/-- Performs an operation. Opening a file tells its number; the others tell
    nothing. -/
def perform (call : DiskCall) (d : Disk) : Disk × Except IoError Nat :=
  let silent : Disk × Except IoError Unit → Disk × Except IoError Nat
    | (d, r) => (d, r.map fun _ => 0)
  match call with
  | makeDirs path => silent (d.makeDirs path)
  | create path => d.create path
  | write number offset bytes => (d.write number offset bytes, .ok 0)
  | sync _ => (d, .ok 0)
  | rename source target => silent (d.rename source target)
  | remove path => silent (d.remove path)

end DiskCall

/-- How far the writing of a grammar has come. -/
inductive CacheWrite where
  /-- The directory is to be made. -/
  | preparing
  /-- The temporary file is to be opened. -/
  | opening
  /-- The bytes are to be written into the open file. -/
  | filling (number : Nat)
  /-- They are to reach the disk. -/
  | syncing (number : Nat)
  /-- The temporary file is to be given its name. -/
  | naming
  /-- The temporary file is to be removed after a failure. -/
  | discarding (cause : IoError)
  /-- All is over. -/
  | done (result : Except IoError Unit)

namespace CacheWrite

/-- The operation that comes next in writing the grammar of a language. -/
def call? (c : GrammarCache) (lang : String) (bytes : Bytes) : CacheWrite → Option DiskCall
  | preparing => some (.makeDirs c.dir)
  | opening => some (.create (c.tempPath lang))
  | filling number => some (.write number 0 bytes)
  | syncing number => some (.sync number)
  | naming => some (.rename (c.tempPath lang) (c.path lang))
  | discarding _ => some (.remove (c.tempPath lang))
  | done _ => none

/-- What becomes of the writing when that operation ended in some way. Whatever
    fails once the directory is there, the temporary file is removed. -/
def next : CacheWrite → Except IoError Nat → CacheWrite
  | preparing, .ok _ => opening
  | preparing, .error e => done (.error e)
  | opening, .ok number => filling number
  | filling number, .ok _ => syncing number
  | syncing _, .ok _ => naming
  | naming, .ok _ => done (.ok ())
  | opening, .error e => discarding e
  | filling _, .error e => discarding e
  | syncing _, .error e => discarding e
  | naming, .error e => discarding e
  | discarding cause, _ => done (.error cause)
  | done r, _ => done r

/-- The number of operations that are left at most. -/
def remaining : CacheWrite → Nat
  | preparing => 6
  | opening => 5
  | filling _ => 4
  | syncing _ => 3
  | naming => 2
  | discarding _ => 1
  | done _ => 0

theorem remaining_next_lt {w : CacheWrite} (r : Except IoError Nat) (h : 0 < w.remaining) :
    (w.next r).remaining < w.remaining := by
  cases w <;> cases r <;> simp_all [next, remaining]

/-- Performs the operations that are left, one right after another. -/
def finish (c : GrammarCache) (lang : String) (bytes : Bytes) (w : CacheWrite) (d : Disk) :
    Disk × Except IoError Unit :=
  match w with
  | done r => (d, r)
  | w =>
    match _h : w.call? c lang bytes with
    | none => (d, .ok ())
    | some call =>
      let (d, r) := call.perform d
      finish c lang bytes (w.next r) d
termination_by w.remaining
decreasing_by
  exact remaining_next_lt _ (by cases w <;> simp_all [call?, remaining])

end CacheWrite

namespace GrammarCache

/-- Whether the grammar of a language is stored. -/
def exists? (c : GrammarCache) (lang : String) (d : Disk) : Bool :=
  match d.exists? (c.path lang) with
  | .ok present => present
  | .error _ => false

/-- The stored grammar of a language. -/
def read (c : GrammarCache) (lang : String) (d : Disk) : Except IoError Bytes :=
  d.read (c.path lang)

/-- Stores the grammar of a language. -/
def write (c : GrammarCache) (lang : String) (bytes : Bytes) (d : Disk) :
    Disk × Except IoError Unit :=
  CacheWrite.preparing.finish c lang bytes d

/-- Removes the stored grammar of a language, if there is one. -/
def remove (c : GrammarCache) (lang : String) (d : Disk) : Disk × Except IoError Unit :=
  match d.remove (c.path lang) with
  | (d, .error .notFound) => (d, .ok ())
  | r => r

end GrammarCache

end SymbolPaths
