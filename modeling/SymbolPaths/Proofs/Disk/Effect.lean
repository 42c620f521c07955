import SymbolPaths.Grammar.Cache
import SymbolPaths.Proofs.Disk.Place

/-!
# What operations do to the disk

Each operation on the disk is about the places of its paths, or about an open file, and
leaves everything else alone. What it can do is said once (`DiskCall.Effect`), as far as
files are concerned: of directories it is only said that more may come.

* `DiskCall.effect_perform`: what an operation does;
* `DiskCall.Effect.sameAt`: what it leaves alone;
* `Disk.IsUnshared`: no file has two names at places of a kind, which an operation that only
  opens and renames files at such places keeps (`DiskCall.Effect.isUnshared`).

An operation is followed through the disk here and nowhere else. From then on it is enough to know
which of a few things it did: each of them is a change of one entry or of one file, or none, and
says what was there before. What depends on the names, such as who has the file at a place, is
read off the entries after the change, and what depends on the bytes off the files.

A new file has a number that no entry can have, as no entry of a disk has a number past its files.
So opening a file can never give a second name to one that is there.
-/

namespace SymbolPaths

namespace Disk

/-- Whether no file has two names at places of a kind. It may have others elsewhere. -/
def IsUnshared (d : Disk) (Q : Place → Prop) : Prop :=
  ∀ ⦃q q' : Place⦄ ⦃n : Nat⦄, Q q → Q q' → d.entry? q = some (.file n) →
    d.entry? q' = some (.file n) → q = q'

/-- Whether a disk is another one with directories where nothing was. -/
structure Extends (d d' : Disk) : Prop where
  /-- No file was made or changed. -/
  contents_eq : d'.contents = d.contents
  /-- What had a name has it still. -/
  kept : ∀ {q : Place} {e : DiskEntry}, d.entry? q = some e → d'.entry? q = some e
  /-- What is new is no file. -/
  no_file : ∀ {q : Place} {n : Nat}, d'.entry? q = some (.file n) → d.entry? q = some (.file n)

/-- Whether two disks have the same file at a place, or none, with the same content. -/
structure SameAt (q : Place) (d d' : Disk) : Prop where
  /-- It is the same file, by its number. -/
  entry?_iff : ∀ n, d'.entry? q = some (.file n) ↔ d.entry? q = some (.file n)
  /-- It holds what it held. -/
  content_eq : ∀ n, d.entry? q = some (.file n) → d'.content n = d.content n

/-- What the file at a place holds. -/
def file? (d : Disk) (q : Place) : Option Bytes :=
  match d.entry? q with
  | some (.file n) => some (d.content n)
  | _ => none

variable {d d' d'' : Disk} {q : Place} {n m : Nat} {payload : Bytes} {path : String}

/-- A file is at a place and holds something exactly if its number is there and the content of that
    number is. -/
theorem file?_eq_some_iff :
    d.file? q = some payload ↔ ∃ n, d.entry? q = some (.file n) ∧ d.content n = payload := by
  rw [file?]
  split
  · next n hn => simp [hn]
  · next h => simpa using fun n hn => absurd hn (h n)

/-- What is found at a place was entered there. -/
theorem mem_of_file {q : Place} {n : Nat} (h : d.entry? q = some (.file n)) :
    (q, .file n) ∈ d.entries := by
  rw [ entry?] at h
  split at h
  · cases h
  · obtain ⟨front, back, hentries, _⟩ := List.lookup_eq_some_iff.1 h
    rw [hentries]
    exact List.mem_append_right _ List.mem_cons_self

/-- There are no files on the empty disk. -/
theorem file?_empty (q : Place) : Disk.empty.file? q = none := by
  rw [file?, entry?]
  split
  · next h => split at h <;> cases h
  · rfl

/-- So it is at fewer places. -/
theorem IsUnshared.mono {P Q : Place → Prop} (h : d.IsUnshared Q) (hsub : ∀ q, P q → Q q) :
    d.IsUnshared P :=
  fun q q' _ hq hq' => h (hsub q hq) (hsub q' hq')

/-- No file has two names if no two entries lead to one, which can be decided of a given disk. -/
theorem isUnshared_of_entries (Q : Place → Prop)
    (h : ∀ a ∈ d.entries, ∀ b ∈ d.entries, a.2 ≠ .directory → a.2 = b.2 → a.1 = b.1) :
    d.IsUnshared Q :=
  fun _ _ _ _ _ hq hq' => h _ (mem_of_file hq) _ (mem_of_file hq') (by simp) rfl

/-- Without files there are no names to be shared. -/
theorem isUnshared_empty (Q : Place → Prop) : Disk.empty.IsUnshared Q :=
  isUnshared_of_entries Q (by decide)

theorem SameAt.refl (q : Place) (d : Disk) : SameAt q d d := ⟨fun _ => Iff.rfl, fun _ _ => rfl⟩

/-- Where two disks have the same file, it holds the same. -/
theorem SameAt.file?_eq (h : SameAt q d d') : d'.file? q = d.file? q := by
  refine Option.ext fun payload => ?_
  rw [file?_eq_some_iff, file?_eq_some_iff]
  refine exists_congr fun n => ?_
  rw [h.entry?_iff]
  exact and_congr_right fun hn => by rw [h.content_eq n hn]

theorem ne_nil_of_none (hq : d.entry? q = none) : q ≠ [] := by
  rintro rfl
  cases hq

theorem ne_nil_of_file (hq : d.entry? q = some (.file n)) : q ≠ [] := by
  rintro rfl
  cases hq

theorem Extends.refl (d : Disk) : d.Extends d := ⟨rfl, id, id⟩

theorem Extends.trans (h : d.Extends d') (h' : d'.Extends d'') : d.Extends d'' :=
  ⟨h'.contents_eq.trans h.contents_eq, fun hq => h'.kept (h.kept hq),
    fun hq => h.no_file (h'.no_file hq)⟩

/-- No file is touched when directories are made. -/
theorem Extends.sameAt (h : d.Extends d') (q : Place) : SameAt q d d' := by
  refine ⟨fun n => ⟨h.no_file, h.kept⟩, fun n _ => ?_⟩
  rw [content, content, h.contents_eq]

/-- A directory may be made where nothing is. -/
theorem extends_addDirectory (hq : d.entry? q = none) : d.Extends (d.addDirectory q) := by
  have hne : q ≠ [] := ne_nil_of_none hq
  refine ⟨rfl, fun {p e} hp => ?_, fun {p n} hp => ?_⟩
  · rw [entry?_addDirectory d hne, if_neg]
    · exact hp
    · rintro rfl
      cases hq.symm.trans hp
  · rw [entry?_addDirectory d hne] at hp
    split at hp
    · cases hp
    · exact hp

/-- Making directories does nothing else, as far as it comes. -/
theorem extends_makeAlong (d : Disk) (place : Place) (segs : List String) :
    d.Extends (d.makeAlong place segs).1 := by
  induction segs generalizing d place with
  | nil => exact .refl d
  | cons s segs ih =>
    rw [makeAlong]
    split
    · exact ih d place
    · split
      · exact ih d _
      · split
        · exact ih d _
        · exact .refl d
        · next hnone =>
          split
          · exact .refl d
          · exact (extends_addDirectory hnone).trans (ih _ _)

theorem extends_makeDirs (d : Disk) (path : String) : d.Extends (d.makeDirs path).1 :=
  extends_makeAlong d _ _

theorem length_fill (d : Disk) (n : Nat) (bytes : Bytes) :
    (d.fill n bytes).contents.length = d.contents.length :=
  List.length_set

theorem length_addFile (d : Disk) (q : Place) :
    (d.addFile q).contents.length = d.contents.length + 1 :=
  d.length_concat []

/-- What other files hold stays. -/
theorem content_fill_of_ne (d : Disk) (hne : n ≠ m) (bytes : Bytes) :
    (d.fill m bytes).content n = d.content n := by
  simp only [content, fill, List.getD_eq_getElem?_getD, List.getElem?_set_ne (Ne.symm hne)]

/-- A new file is empty, and so is one that was not created, so nothing else is held then. -/
theorem content_addFile (d : Disk) (q : Place) (n : Nat) :
    (d.addFile q).content n = d.content n := by
  have hcontents : (d.addFile q).contents = d.contents ++ [[]] := rfl
  simp only [content, hcontents, List.getD_eq_getElem?_getD, List.getElem?_append]
  split
  · rfl
  · next hn =>
    rw [List.getElem?_eq_none (Nat.le_of_not_lt hn)]
    cases n - d.contents.length <;> rfl

theorem content_move (d : Disk) (q q' : Place) (n : Nat) :
    (d.move q q').content n = d.content n := by
  rw [content, content, contents_move]

end Disk

/-- A path that ends with no slash loses nothing, so it is followed as it is. -/
theorem FilePath.trimSlashes_eq {path : String} (h : endsWithSlash path = false) :
    trimSlashes path = path := by
  rw [endsWithSlash, beq_eq_false_iff_ne, ← List.head?_reverse] at h
  have hdrop : path.toList.reverse.dropWhile (· = '/') = path.toList.reverse := by
    cases hlist : path.toList.reverse with
    | nil => rfl
    | cons c cs =>
      rw [hlist, List.head?_cons, ne_eq, Option.some.injEq] at h
      exact List.dropWhile_cons_of_neg (by simpa using h)
  rw [trimSlashes, hdrop, List.reverse_reverse]
  split
  · next hnil =>
    obtain rfl := String.toList_eq_nil_iff.1 hnil
    rfl
  · exact String.ofList_toList

namespace DiskCall

open FilePath (place)

/-- What an operation does to the disk, and how it ends. -/
inductive Effect (d : Disk) : DiskCall → Disk → Except IoError Nat → Prop
  /-- An operation that cannot be done does nothing. -/
  | fails {call : DiskCall} {e : IoError} : Effect d call d (.error e)
  /-- Flushing a file does nothing to be seen. -/
  | syncs {n : Nat} : Effect d (.sync n) d (.ok 0)
  /-- Directories are made, maybe not all of them. -/
  | makes {path : String} {d' : Disk} {result : Except IoError Nat} :
      d.Extends d' → Effect d (.makeDirs path) d' result
  /-- A file that is there is emptied. -/
  | empties {path : String} {n : Nat} : d.entry? (place path) = some (.file n) →
      Effect d (.create path) (d.fill n []) (.ok n)
  /-- A file is created. -/
  | opens {path : String} : d.entry? (place path) = none →
      Effect d (.create path) (d.addFile (place path)) (.ok d.contents.length)
  /-- An open file is written to, whether it has a name or not. -/
  | writes {n offset : Nat} {bytes : Bytes} :
      Effect d (.write n offset bytes) (d.write n offset bytes) (.ok 0)
  /-- A file that is there gets another name, and loses its old one. -/
  | renames {source target : String} {n : Nat} : d.entry? (place source) = some (.file n) →
      place target ≠ [] →
      Effect d (.rename source target) (d.move (place source) (place target)) (.ok 0)
  /-- A file that is there loses its name. -/
  | removes {path : String} {n : Nat} : d.entry? (place path) = some (.file n) →
      Effect d (.remove path) (d.unset (place path)) (.ok 0)

variable {d d' : Disk} {call : DiskCall} {result : Except IoError Nat} {Q : Place → Prop}
  {q : Place} {n : Nat}

/-- Opening a file for writing empties it or creates it, and what the path leads to decides
    which. -/
theorem effect_create (d : Disk) (path : String) :
    Effect d (.create path) (d.create path).1 (d.create path).2 := by
  rw [Disk.create]
  cases hslash : FilePath.endsWithSlash path with
  | true => split <;> exact .fails
  | false =>
    rw [FilePath.trimSlashes_eq hslash]
    split
    · exact .fails
    · exact .fails
    · next hresolve =>
      obtain ⟨rfl, hentry⟩ := Disk.resolve_eq_file hresolve
      exact .empties hentry
    · next hresolve =>
      obtain ⟨rfl, hentry⟩ := Disk.resolve_eq_absent hresolve
      exact .opens hentry

/-- Only files are renamed, and only to places that are not the top. -/
theorem effect_rename (d : Disk) (source target : String) :
    Effect d (.rename source target) (d.rename source target).1
      ((d.rename source target).2.map fun _ => 0) := by
  rw [Disk.rename]
  split
  · exact .fails
  · exact .fails
  · exact .fails
  · next hsource =>
    obtain ⟨rfl, hentry⟩ := Disk.resolve_eq_file hsource
    split
    · exact .fails
    · exact .fails
    · next htarget =>
      obtain ⟨rfl, hentry'⟩ := Disk.resolve_eq_file htarget
      exact .renames hentry (Disk.ne_nil_of_file hentry')
    · next htarget =>
      obtain ⟨rfl, hentry'⟩ := Disk.resolve_eq_absent htarget
      exact .renames hentry (Disk.ne_nil_of_none hentry')

/-- Only files are removed. -/
theorem effect_remove (d : Disk) (path : String) :
    Effect d (.remove path) (d.remove path).1 ((d.remove path).2.map fun _ => 0) := by
  rw [Disk.remove]
  split
  · exact .fails
  · exact .fails
  · exact .fails
  · next hresolve =>
    obtain ⟨rfl, hentry⟩ := Disk.resolve_eq_file hresolve
    exact .removes hentry

/-- Every operation does what is said of it, or fails and does nothing. -/
theorem effect_perform (call : DiskCall) (d : Disk) :
    Effect d call (call.perform d).1 (call.perform d).2 := by
  cases call with
  | makeDirs path => exact .makes (Disk.extends_makeDirs d path)
  | create path => exact effect_create d path
  | write n offset bytes => exact .writes
  | sync n => exact .syncs
  | rename source target => exact effect_rename d source target
  | remove path => exact effect_remove d path

/-- Whether an operation is about something else than the file at a place. -/
def Avoids (d : Disk) (q : Place) : DiskCall → Prop
  | makeDirs _ => True
  | create path => q ≠ place path
  | write n _ _ => d.entry? q ≠ some (.file n)
  | sync _ => True
  | rename source target => q ≠ place source ∧ q ≠ place target
  | remove path => q ≠ place path

/-- Whether the files that an operation opens and renames are at places of a kind. -/
def IsWithin (Q : Place → Prop) : DiskCall → Prop
  | create path => Q (place path)
  | rename source _ => Q (place source)
  | _ => True

/-- The places at which files are after an operation: where they were before, unless the
    operation creates, renames or removes them. -/
theorem Effect.entry?_eq_file (h : Effect d call d' result)
    (hentry : d'.entry? q = some (.file n)) : d.entry? q = some (.file n) ∨
      (n = d.contents.length ∧ ∃ path, call = .create path ∧ q = place path) ∨
      ∃ source target, call = .rename source target ∧ q = place target ∧
        d.entry? (place source) = some (.file n) := by
  -- A call puts a file at a place by making it there or by renaming it to there.
  cases h with
  | makes hextends => exact .inl (hextends.no_file hentry)
  | @opens path hnone =>
    rw [Disk.entry?_addFile d (Disk.ne_nil_of_none hnone)] at hentry
    split at hentry
    · next hq =>
      cases hentry
      exact .inr (.inl ⟨rfl, path, rfl, hq⟩)
    · exact .inl hentry
  | @renames source target m hm hne =>
    rw [Disk.entry?_move d (Disk.ne_nil_of_file hm) hne hm] at hentry
    split at hentry
    · next hq =>
      cases hentry
      exact .inr (.inr ⟨source, target, rfl, hq, hm⟩)
    · split at hentry
      · cases hentry
      · exact .inl hentry
  | removes hm =>
    rw [Disk.entry?_unset d (Disk.ne_nil_of_file hm)] at hentry
    split at hentry
    · cases hentry
    · exact .inl hentry
  | _ => exact .inl hentry

/-- No file is ever given up, even if it has no name any more. -/
theorem Effect.length_le (h : Effect d call d' result) :
    d.contents.length ≤ d'.contents.length := by
  cases h with
  | makes hextends => exact Nat.le_of_eq (congrArg _ hextends.contents_eq.symm)
  | empties => exact Nat.le_of_eq (Disk.length_fill ..).symm
  | opens => exact Nat.le_of_succ_le (Nat.le_of_eq (Disk.length_addFile ..).symm)
  | writes => exact Nat.le_of_eq (Disk.length_fill ..).symm
  | renames => exact Nat.le_of_eq (congrArg _ (Disk.contents_move ..).symm)
  | _ => exact Nat.le_refl _

/-- What an operation is not about stays as it is. -/
theorem Effect.sameAt (h : Effect d call d' result) (hunshared : d.IsUnshared Q)
    (hwithin : call.IsWithin Q) (hq : Q q) (havoids : call.Avoids d q) : Disk.SameAt q d d' := by
  cases h with
  | fails => exact .refl q d
  | syncs => exact .refl q d
  | makes hextends => exact hextends.sameAt q
  | empties hm =>
    -- Another file is emptied, as this one has no other name.
    refine ⟨fun n => Iff.rfl, fun n hn => Disk.content_fill_of_ne d ?_ _⟩
    rintro rfl
    exact havoids (hunshared hq hwithin hn hm)
  | opens hnone =>
    refine ⟨fun n => ?_, fun n _ => Disk.content_addFile d _ n⟩
    rw [Disk.entry?_addFile d (Disk.ne_nil_of_none hnone), if_neg havoids]
  | writes =>
    refine ⟨fun n => Iff.rfl, fun n hn => Disk.content_fill_of_ne d ?_ _⟩
    rintro rfl
    exact havoids hn
  | renames hm hne =>
    refine ⟨fun n => ?_, fun n _ => Disk.content_move d _ _ n⟩
    rw [Disk.entry?_move d (Disk.ne_nil_of_file hm) hne hm, if_neg havoids.2, if_neg havoids.1]
  | removes hm =>
    refine ⟨fun n => ?_, fun n _ => rfl⟩
    rw [Disk.entry?_unset d (Disk.ne_nil_of_file hm), if_neg havoids]

/-- No file gets a second name: a new one has only its own, and a renamed one loses its old
    name. -/
theorem Effect.isUnshared (h : Effect d call d' result) (hunshared : d.IsUnshared Q)
    (hwithin : call.IsWithin Q) : d'.IsUnshared Q := by
  cases h with
  | fails => exact hunshared
  | syncs => exact hunshared
  | empties => exact hunshared
  | writes => exact hunshared
  | makes hextends =>
    exact fun _ _ _ hQ hQ' hq hq' => hunshared hQ hQ' (hextends.no_file hq) (hextends.no_file hq')
  | opens hnone =>
    -- No entry names the file that is made: its number is past the end.
    have hfresh {x : Place} (hx : d.entry? x = some (.file d.contents.length)) : False :=
      Nat.lt_irrefl _ (Disk.lt_length_of_entry hx)
    intro x x' m hQ hQ' hx hx'
    rw [Disk.entry?_addFile d (Disk.ne_nil_of_none hnone)] at hx hx'
    split at hx <;> split at hx'
    · next hxp hxp' => exact hxp.trans hxp'.symm
    · cases hx
      exact (hfresh hx').elim
    · cases hx'
      exact (hfresh hx).elim
    · exact hunshared hQ hQ' hx hx'
  | @renames source target n hn hne =>
    -- The file goes to its new place and leaves the old one, where alone it was.
    have hgone {x : Place} {m : Nat}
        (hx : (if x = place source then none else d.entry? x) = some (.file m)) :
        d.entry? x = some (.file m) ∧ x ≠ place source := by
      split at hx
      · cases hx
      · next hxp => exact ⟨hx, hxp⟩
    intro x x' m hQ hQ' hx hx'
    rw [Disk.entry?_move d (Disk.ne_nil_of_file hn) hne hn] at hx hx'
    split at hx <;> split at hx'
    · next hxp hxp' => exact hxp.trans hxp'.symm
    · cases hx
      obtain ⟨hx', hxp'⟩ := hgone hx'
      exact absurd (hunshared hQ' hwithin hx' hn) hxp'
    · cases hx'
      obtain ⟨hx, hxp⟩ := hgone hx
      exact absurd (hunshared hQ hwithin hx hn) hxp
    · exact hunshared hQ hQ' (hgone hx).1 (hgone hx').1
  | @removes path n hn =>
    have hkept {x : Place} {m : Nat} (hx : Disk.entry? (d.unset (place path)) x = some (.file m)) :
        d.entry? x = some (.file m) := by
      rw [Disk.entry?_unset d (Disk.ne_nil_of_file hn)] at hx
      split at hx
      · cases hx
      · exact hx
    exact fun _ _ _ hQ hQ' hx hx' => hunshared hQ hQ' (hkept hx) (hkept hx')

/-- A file that was opened for writing is at the place of its path, and empty. -/
theorem Effect.of_create {path : String} (h : (DiskCall.create path).Effect d d' (.ok n)) :
    d'.entry? (place path) = some (.file n) ∧ d'.content n = [] := by
  cases h with
  | empties hentry => exact ⟨hentry, Disk.content_clear d n⟩
  | opens hnone =>
    constructor
    · rw [Disk.entry?_addFile d (Disk.ne_nil_of_none hnone), if_pos rfl]
    · rw [Disk.content_addFile, Disk.content]
      simp

end DiskCall

end SymbolPaths
