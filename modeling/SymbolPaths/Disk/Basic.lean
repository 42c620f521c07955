import SymbolPaths.Disk.Path
import SymbolPaths.Text.Utf8

/-!
# The disk

A tree of directories and files under one directory at the top, in which the
program runs: a path is followed from there, whether it begins with a slash or
not, and nothing is above. A directory holds names; a name leads to a directory
or to a file, and files have numbers, so that a file that is open for writing
stays what it is when names change:

* creating a file that is there empties it in place;
* writing goes to the file that was opened, at an offset of the writer's own;
* renaming moves a name at once and does not touch the file.

No disk has a name that leads to a file that was not created. Every operation
says what it does to the disk and how it ends.

* `Disk.content_create`: a file that was opened for writing is empty;
* `Disk.content_write`: what is written at the start of an empty file is what it
  holds.
-/

namespace SymbolPaths

/-- Why an operation on the disk failed. -/
inductive IoError where
  | notFound
  | notADirectory
  | isADirectory
  | alreadyExists
  | notText
  /-- Any other failure, with its text. -/
  | other (message : String)
  deriving DecidableEq, Repr, Inhabited

namespace IoError

/-- The text of a failure. -/
def message : IoError → String
  | notFound => "No such file or directory (os error 2)"
  | notADirectory => "Not a directory (os error 20)"
  | isADirectory => "Is a directory (os error 21)"
  | alreadyExists => "File exists (os error 17)"
  | notText => "stream did not contain valid UTF-8"
  | other message => message

end IoError

/-- What a name leads to. -/
inductive DiskEntry where
  | directory
  | file (number : Nat)
  deriving DecidableEq, Repr, Inhabited

namespace DiskEntry

/-- Whether an entry that leads to a file leads to one of so many. -/
def IsBelow (count : Nat) : DiskEntry → Prop
  | directory => True
  | file number => number < count

instance (count : Nat) : (e : DiskEntry) → Decidable (e.IsBelow count)
  | directory => .isTrue trivial
  | file number => inferInstanceAs (Decidable (number < count))

theorem isBelow_directory (count : Nat) : IsBelow count directory := trivial

theorem IsBelow.mono {e : DiskEntry} {n m : Nat} (h : e.IsBelow n) (hle : n ≤ m) : e.IsBelow m := by
  cases e with
  | directory => trivial
  | file number => exact Nat.lt_of_lt_of_le h hle

end DiskEntry

/-- A place on the disk: the names that lead there. -/
abbrev Place := List String

/-- A disk. The contents of all files ever created are kept by their numbers, and
    only such files have names. -/
structure Disk where
  entries : List (Place × DiskEntry)
  contents : List Bytes
  created : ∀ entry ∈ entries, entry.2.IsBelow contents.length
  deriving DecidableEq, Repr

namespace Disk

/-- The disk with an empty directory. -/
def empty : Disk := ⟨[], [], fun _ h => nomatch h⟩

instance : Inhabited Disk := ⟨empty⟩

/-- Where a path leads: to a directory, to a file, or to a name that is not yet
    there in a directory that is. -/
inductive Target where
  | directory (place : Place)
  | file (place : Place) (number : Nat)
  | absent (place : Place)
  deriving DecidableEq, Repr, Inhabited

/-- What a place holds. -/
def entry? (d : Disk) (place : Place) : Option DiskEntry :=
  if place = [] then some .directory else d.entries.lookup place

/-- The contents of a file. -/
def content (d : Disk) (number : Nat) : Bytes := d.contents.getD number []

/-- Follows segments from a directory. The one above the top is the top. -/
def walk (d : Disk) (place : Place) : List String → Except IoError Target
  | [] => .ok (.directory place)
  | s :: rest =>
    if FilePath.isHere s then d.walk place rest
    else if s = ".." then d.walk place.dropLast rest
    else match d.entry? (place ++ [s]) with
      | some .directory => d.walk (place ++ [s]) rest
      | some (.file number) =>
        if rest.isEmpty then .ok (.file (place ++ [s]) number) else .error .notADirectory
      | none => if rest.all (· == "") then .ok (.absent (place ++ [s])) else .error .notFound

/-- Where a path leads. The empty path leads nowhere. -/
def resolve (d : Disk) (path : String) : Except IoError Target :=
  if path = "" then .error .notFound else d.walk [] (FilePath.segments path)

/-! ### Changes -/

/-- The entries of all other places. -/
def without (d : Disk) (place : Place) : List (Place × DiskEntry) :=
  d.entries.filter (·.1 ≠ place)

theorem created_without (d : Disk) (place : Place) :
    ∀ entry ∈ d.without place, entry.2.IsBelow d.contents.length :=
  fun entry h => d.created entry (List.mem_filter.1 h).1

/-- Makes a place hold something. -/
def set (d : Disk) (place : Place) (e : DiskEntry) (h : e.IsBelow d.contents.length) : Disk where
  entries := (place, e) :: d.without place
  contents := d.contents
  created := List.forall_mem_cons.2 ⟨h, d.created_without place⟩

/-- Makes a place hold nothing. -/
def unset (d : Disk) (place : Place) : Disk where
  entries := d.without place
  contents := d.contents
  created := d.created_without place

/-- Makes a place hold a directory. -/
def addDirectory (d : Disk) (place : Place) : Disk :=
  d.set place .directory (DiskEntry.isBelow_directory _)

theorem length_concat (d : Disk) (bytes : Bytes) :
    (d.contents ++ [bytes]).length = d.contents.length + 1 :=
  List.length_append

/-- Makes a file that is empty and has no name yet. -/
def allot (d : Disk) : Disk where
  entries := d.entries
  contents := d.contents ++ [[]]
  created := fun entry h =>
    (d.created entry h).mono (Nat.le_of_succ_le (Nat.le_of_eq (d.length_concat []).symm))

theorem isBelow_allot (d : Disk) :
    (DiskEntry.file d.contents.length).IsBelow d.allot.contents.length :=
  Nat.le_of_eq (d.length_concat []).symm

/-- Makes a place hold a new file. -/
def addFile (d : Disk) (place : Place) : Disk :=
  d.allot.set place (.file d.contents.length) d.isBelow_allot

/-- Makes a file hold something. -/
def fill (d : Disk) (number : Nat) (bytes : Bytes) : Disk where
  entries := d.entries
  contents := d.contents.set number bytes
  created := fun entry h => (d.created entry h).mono (Nat.le_of_eq List.length_set.symm)

theorem isBelow_of_lookup (d : Disk) {place : Place} {e : DiskEntry}
    (h : d.entries.lookup place = some e) : e.IsBelow d.contents.length := by
  obtain ⟨front, back, hentries, -⟩ := List.lookup_eq_some_iff.1 h
  refine d.created (place, e) ?_
  rw [hentries]
  exact List.mem_append_right _ List.mem_cons_self

theorem isBelow_unset (d : Disk) {place : Place} {e : DiskEntry}
    (h : d.entries.lookup place = some e) : e.IsBelow (d.unset place).contents.length :=
  d.isBelow_of_lookup h

/-- Makes a place hold what another one holds, which holds nothing then. -/
def move (d : Disk) (place place' : Place) : Disk :=
  match h : d.entries.lookup place with
  | none => d
  | some e => (d.unset place).set place' e (d.isBelow_unset h)

/-! ### Operations -/

/-- Creates the directories along segments that are not there. The last one must
    not be named by a dot in itself. -/
def makeAlong (d : Disk) (place : Place) : List String → Disk × Except IoError Unit
  | [] => (d, .ok ())
  | s :: rest =>
    if FilePath.isHere s then d.makeAlong place rest
    else if s = ".." then d.makeAlong place.dropLast rest
    else match d.entry? (place ++ [s]) with
      | some .directory => d.makeAlong (place ++ [s]) rest
      | some (.file _) =>
        (d, .error (if rest.all (· == "") then .alreadyExists else .notADirectory))
      | none =>
        if rest.all FilePath.isHere && rest.contains "." then (d, .error .notFound)
        else (d.addDirectory (place ++ [s])).makeAlong (place ++ [s]) rest

/-- Creates a directory and those above it. For the empty path there is nothing to
    be created. -/
def makeDirs (d : Disk) (path : String) : Disk × Except IoError Unit :=
  d.makeAlong [] (FilePath.segments path)

/-- Opens a file for writing from its start, emptied or new, and tells its
    number. A path that ends with a slash is taken for that of a directory. -/
def create (d : Disk) (path : String) : Disk × Except IoError Nat :=
  match d.resolve (FilePath.trimSlashes path) with
  | .error e => (d, .error e)
  | .ok (.directory _) => (d, .error .isADirectory)
  | .ok (.file _ number) =>
    if FilePath.endsWithSlash path then (d, .error .isADirectory)
    else (d.fill number [], .ok number)
  | .ok (.absent place) =>
    if FilePath.endsWithSlash path then (d, .error .isADirectory)
    else (d.addFile place, .ok d.contents.length)

/-- Writes into an open file; a gap before the offset is filled with zeros. -/
def write (d : Disk) (number offset : Nat) (bytes : Bytes) : Disk :=
  let old := d.content number
  let start := old.take offset ++ List.replicate (offset - old.length) 0
  d.fill number (start ++ bytes ++ old.drop (offset + bytes.length))

theorem content_clear (d : Disk) (n : Nat) : (d.fill n []).content n = [] := by
  simp only [content, fill, List.getD_eq_getElem?_getD, List.getElem?_set_self']
  cases d.contents[n]? <;> rfl

theorem content_create {d d' : Disk} {path : String} {n : Nat}
    (h : d.create path = (d', .ok n)) : d'.content n = [] := by
  unfold create at h
  split at h
  · simp at h
  · simp at h
  · split at h
    · simp at h
    · obtain ⟨rfl, rfl⟩ : _ ∧ _ := by simpa using h
      exact content_clear d _
  · split at h
    · simp at h
    · obtain ⟨rfl, rfl⟩ : _ ∧ _ := by simpa using h
      simp [content, addFile, allot, set]

theorem content_write {d : Disk} {n : Nat} (hn : n < d.contents.length) (h : d.content n = [])
    (bytes : Bytes) : (d.write n 0 bytes).content n = bytes := by
  simp only [write, h]
  simp [content, fill, hn]

/-- Gives a file another name, in place of what had that name. -/
def rename (d : Disk) (source target : String) : Disk × Except IoError Unit :=
  match d.resolve source with
  | .error e => (d, .error e)
  | .ok (.absent _) => (d, .error .notFound)
  | .ok (.directory _) => (d, .error .isADirectory)
  | .ok (.file place _) =>
    match d.resolve target with
    | .error e => (d, .error e)
    | .ok (.directory _) => (d, .error .isADirectory)
    | .ok (.file place' _) => (d.move place place', .ok ())
    | .ok (.absent place') => (d.move place place', .ok ())

/-- Removes a file. -/
def remove (d : Disk) (path : String) : Disk × Except IoError Unit :=
  match d.resolve path with
  | .error e => (d, .error e)
  | .ok (.absent _) => (d, .error .notFound)
  | .ok (.directory _) => (d, .error .isADirectory)
  | .ok (.file place _) => (d.unset place, .ok ())

/-- Whether a path leads to something. -/
def exists? (d : Disk) (path : String) : Except IoError Bool :=
  match d.resolve path with
  | .error .notFound => .ok false
  | .error e => .error e
  | .ok (.absent _) => .ok false
  | .ok _ => .ok true

/-- The contents of the file at a path. -/
def read (d : Disk) (path : String) : Except IoError Bytes :=
  match d.resolve path with
  | .error e => .error e
  | .ok (.absent _) => .error .notFound
  | .ok (.directory _) => .error .isADirectory
  | .ok (.file _ number) => .ok (d.content number)

/-- The text of the file at a path. -/
def readText (d : Disk) (path : String) : Except IoError String := do
  let bytes ← d.read path
  match Text.decode? bytes with
  | some text => .ok text
  | none => .error .notText

/-- Writes a whole file. -/
def writeFile (d : Disk) (path : String) (bytes : Bytes) : Disk × Except IoError Unit :=
  match d.create path with
  | (d, .error e) => (d, .error e)
  | (d, .ok number) => (d.write number 0 bytes, .ok ())

/-- The names in a directory and what they lead to, sorted. -/
def list? (d : Disk) (path : String) : Option (List (String × DiskEntry)) :=
  match d.resolve path with
  | .ok (.directory place) =>
    let inside := d.entries.filterMap fun (p, e) =>
      match p.getLast? with
      | some name => if p.dropLast = place then some (name, e) else none
      | none => none
    some (inside.mergeSort fun a b => a.1 ≤ b.1)
  | _ => none

end Disk

end SymbolPaths
