import SymbolPaths.Language.Registry
import SymbolPaths.Proofs.Disk.Effect

/-!
# The files of the cache

The cache has two files for each language, the one of the payload and the one that it is
written into first, and no two of all these have the same place. So the operations of
storing one payload leave the files of the other languages alone, and none of them touches
a payload but the renaming that completes it.

* `GrammarCache.Contains`: the places of the names in the directory of the cache;
* `GrammarCache.stored?`: the payload that is stored for a language;
* `CacheWrite.Fits`: what the temporary file holds when a payload is being stored;
* `CacheWrite.fits_next`, `CacheWrite.file?_of_effect`: what the operations of storing a
  payload come to, one after another;
* `CacheWrite.avoids_of_ne`: what they are not about.

Of the operations of storing a payload each relies on what those before it have left in the
temporary file (`CacheWrite.Fits`): it is open and empty, it holds the payload, or it holds the
payload and is there under its name. Nobody else touches it, as nobody else has a file of that
name, and the file of the payload is touched by the renaming only.

The registry has no name with a slash, so the names of the files are names indeed. All that is
said here of a language is said of any name without a slash.
-/

namespace SymbolPaths

open FilePath (place)

/-- No registered language has a slash in its name. -/
theorem Language.no_slash {language : Language} (h : language ∈ Language.all) :
    '/' ∉ language.name.toList := by
  have hall : ∀ l ∈ Language.all, '/' ∉ l.name.toList := by decide
  exact hall language h

namespace GrammarCache

/-- The name of the file of a language. -/
def fileName (lang : String) : String := "tree-sitter-" ++ lang ++ ".wasm"

/-- The name of the file that it is written into first. -/
def tempName (lang : String) : String := fileName lang ++ ".tmp"

variable {c : GrammarCache} {lang other : String} {d d' : Disk} {q : Place} {n : Nat}

theorem path_eq (c : GrammarCache) (lang : String) :
    c.path lang = FilePath.join c.dir (fileName lang) := rfl

/-- The file that a payload is written into first is in the same directory. -/
theorem tempPath_eq (c : GrammarCache) (lang : String) :
    c.tempPath lang = FilePath.join c.dir (tempName lang) := by
  rw [tempPath, path_eq, FilePath.join, FilePath.join]
  split
  · rfl
  · split <;> exact String.append_assoc

/-- What begins as all files of the cache do is a name, if no slash is in it. -/
theorem isName_append {rest : String} (h : '/' ∉ rest.toList) :
    FilePath.IsName ("tree-sitter-" ++ rest) := by
  have htext : ("tree-sitter-" ++ rest).toList = 't' :: ("ree-sitter-" ++ rest).toList := by simp
  constructor
  case not_here =>
    rw [FilePath.isHere, Bool.or_eq_false_iff, beq_eq_false_iff_ne, beq_eq_false_iff_ne]
    constructor <;>
    · intro heq
      rw [heq] at htext
      cases htext
  case not_up =>
    intro heq
    rw [heq] at htext
    cases htext
  case no_slash => simpa using h

theorem isName_fileName (h : '/' ∉ lang.toList) : FilePath.IsName (fileName lang) := by
  rw [fileName, String.append_assoc]
  exact isName_append (by simpa using h)

theorem isName_tempName (h : '/' ∉ lang.toList) : FilePath.IsName (tempName lang) := by
  rw [tempName, fileName, String.append_assoc, String.append_assoc]
  exact isName_append (by simpa using h)

/-- Whether a place is that of a name in the directory of the cache. -/
def Contains (c : GrammarCache) (q : Place) : Prop := ∃ name, q = place c.dir ++ [name]

/-- A payload has its place in the directory of the cache. -/
theorem place_path (c : GrammarCache) (hlang : '/' ∉ lang.toList) :
    place (c.path lang) = place c.dir ++ [fileName lang] := by
  rw [path_eq]
  exact FilePath.place_join c.dir (isName_fileName hlang)

/-- Its temporary file has its place there as well. -/
theorem place_tempPath (c : GrammarCache) (hlang : '/' ∉ lang.toList) :
    place (c.tempPath lang) = place c.dir ++ [tempName lang] := by
  rw [tempPath_eq]
  exact FilePath.place_join c.dir (isName_tempName hlang)

theorem contains_path (hlang : '/' ∉ lang.toList) : c.Contains (place (c.path lang)) :=
  ⟨_, place_path c hlang⟩

theorem contains_tempPath (hlang : '/' ∉ lang.toList) : c.Contains (place (c.tempPath lang)) :=
  ⟨_, place_tempPath c hlang⟩

/-- No two payloads have one place. -/
theorem eq_of_path (hlang : '/' ∉ lang.toList) (hother : '/' ∉ other.toList)
    (h : place (c.path lang) = place (c.path other)) : lang = other := by
  have hname := FilePath.eq_of_place_join (isName_fileName hlang) (isName_fileName hother) h
  simpa [fileName] using hname

/-- No two temporary files have one place. -/
theorem eq_of_tempPath (hlang : '/' ∉ lang.toList) (hother : '/' ∉ other.toList)
    (h : place (c.tempPath lang) = place (c.tempPath other)) : lang = other := by
  rw [tempPath_eq, tempPath_eq] at h
  have hname := FilePath.eq_of_place_join (isName_tempName hlang) (isName_tempName hother) h
  simpa [tempName, fileName] using hname

/-- No payload has the place of a temporary file. -/
theorem path_ne_tempPath (hlang : '/' ∉ lang.toList) (hother : '/' ∉ other.toList) :
    place (c.path lang) ≠ place (c.tempPath other) := by
  intro h
  rw [tempPath_eq] at h
  have hname := FilePath.eq_of_place_join (isName_fileName hlang) (isName_tempName hother) h
  -- The one name ends with another letter than the other.
  have hm : (fileName lang).toList = ("tree-sitter-" ++ lang ++ ".was").toList ++ ['m'] := by
    simp [fileName]
  have hp : (tempName other).toList = ("tree-sitter-" ++ other ++ ".wasm.tm").toList ++ ['p'] := by
    simp [tempName, fileName]
  rw [hname, hp] at hm
  exact absurd (List.append_inj' hm rfl).2 (by decide)

/-- The payload that is stored for a language. -/
def stored? (c : GrammarCache) (lang : String) (d : Disk) : Option Bytes :=
  d.file? (place (c.path lang))

theorem stored?_empty (c : GrammarCache) (lang : String) : c.stored? lang .empty = none :=
  Disk.file?_empty _

/-- What is read is what is stored. -/
theorem stored?_of_read {payload : Bytes} (h : c.read lang d = .ok payload) :
    c.stored? lang d = some payload := by
  rw [read, Disk.read] at h
  split at h
  · cases h
  · cases h
  · cases h
  · next hresolve =>
    obtain ⟨rfl, hentry⟩ := Disk.resolve_eq_file hresolve
    exact Disk.file?_eq_some_iff.2 ⟨_, hentry, Except.ok.inj h⟩

/-- What is not about the file of a payload leaves what is stored as it is. -/
theorem stored?_of_avoids {call : DiskCall} {result : Except IoError Nat}
    (hlang : '/' ∉ lang.toList) (hunshared : d.IsUnshared c.Contains)
    (heffect : call.Effect d d' result) (hwithin : call.IsWithin c.Contains)
    (havoids : call.Avoids d (place (c.path lang))) : c.stored? lang d' = c.stored? lang d :=
  (heffect.sameAt hunshared hwithin (contains_path hlang) havoids).file?_eq

/-- Whether an open file has no other names in the directory than those of the files of a
    language. -/
structure Owns (c : GrammarCache) (lang : String) (d : Disk) (n : Nat) : Prop where
  /-- It was created. -/
  lt_length : n < d.contents.length
  /-- In the directory of the cache it has at most the two names of the language. -/
  places : ∀ q, c.Contains q → d.entry? q = some (.file n) →
    q = place (c.path lang) ∨ q = place (c.tempPath lang)

end GrammarCache

namespace DiskCall

/-- Whether an operation is another one, or writes something else into the same file. -/
inductive IsLike : DiskCall → DiskCall → Prop
  /-- It is the same operation. -/
  | same (call : DiskCall) : IsLike call call
  /-- Other bytes are written at the same place of the file. -/
  | writes (n offset : Nat) (bytes bytes' : Bytes) :
      IsLike (.write n offset bytes) (.write n offset bytes')

/-- What is written makes no difference to where it is written. -/
theorem IsLike.avoids {call call' : DiskCall} {d : Disk} {q : Place} (h : call.IsLike call')
    (havoids : call.Avoids d q) : call'.Avoids d q := by
  cases h <;> exact havoids

theorem IsLike.isWithin {call call' : DiskCall} {Q : Place → Prop} (h : call.IsLike call')
    (hwithin : call.IsWithin Q) : call'.IsWithin Q := by
  cases h <;> exact hwithin

end DiskCall

namespace CacheWrite

/-- What the temporary file holds when the writing of a payload has come so far. -/
def Fits (c : GrammarCache) (lang : String) (payload : Bytes) (d : Disk) : CacheWrite → Prop
  | filling n => d.entry? (place (c.tempPath lang)) = some (.file n) ∧ d.content n = []
  | syncing _ | naming => d.file? (place (c.tempPath lang)) = some payload
  | _ => True

variable {c : GrammarCache} {lang other : String} {d d' : Disk} {q : Place} {n : Nat}
  {payload : Bytes} {write : CacheWrite} {call call' : DiskCall} {result : Except IoError Nat}

/-- Storing a payload opens and renames files in the directory of the cache only. -/
theorem isWithin_of_call? (hlang : '/' ∉ lang.toList)
    (hcall : write.call? c lang payload = some call) : call.IsWithin c.Contains := by
  cases write with
  | opening =>
    cases hcall
    exact GrammarCache.contains_tempPath hlang
  | naming =>
    cases hcall
    exact GrammarCache.contains_tempPath hlang
  | done r => cases hcall
  | _ =>
    cases hcall
    trivial

/-- After a failure nothing is relied on but what was there. -/
theorem fits_next_error (e : IoError) : (write.next (.error e)).Fits c lang payload d := by
  cases write <;> trivial

/-- An operation that ends well does what is needed for the next one. -/
theorem fits_next (hfits : write.Fits c lang payload d)
    (hcall : write.call? c lang payload = some call) (heffect : call.Effect d d' result) :
    (write.next result).Fits c lang payload d' := by
  cases result with
  | error e => exact fits_next_error e
  | ok number =>
    cases write with
    | preparing => trivial
    | opening =>
      cases hcall
      exact heffect.of_create
    | filling n =>
      cases hcall
      obtain ⟨hentry, hempty⟩ := hfits
      cases heffect with
      | writes =>
        refine Disk.file?_eq_some_iff.2 ⟨n, hentry, ?_⟩
        exact Disk.content_write (Disk.lt_length_of_entry hentry) hempty payload
    | syncing n =>
      cases hcall
      cases heffect
      exact hfits
    | naming => trivial
    | discarding cause => trivial
    | done r => trivial

/-- The temporary file is as it was if nothing happens to it. -/
theorem fits_of_sameAt (hfits : write.Fits c lang payload d)
    (hsame : Disk.SameAt (place (c.tempPath lang)) d d') : write.Fits c lang payload d' := by
  cases write with
  | filling n =>
    obtain ⟨hentry, hempty⟩ := hfits
    exact ⟨(hsame.entry?_iff n).2 hentry, (hsame.content_eq n hentry).trans hempty⟩
  | syncing n => exact hsame.file?_eq.trans hfits
  | naming => exact hsame.file?_eq.trans hfits
  | _ => trivial

/-- With its name the temporary file becomes what is stored. -/
theorem stored?_of_rename (hfits : naming.Fits c lang payload d)
    (heffect : (DiskCall.rename (c.tempPath lang) (c.path lang)).Effect d d' (.ok n)) :
    c.stored? lang d' = some payload := by
  cases heffect with
  | @renames _ _ m hentry hne =>
    obtain ⟨m', hm', hcontent⟩ := Disk.file?_eq_some_iff.1 hfits
    cases hentry.symm.trans hm'
    refine Disk.file?_eq_some_iff.2 ⟨m, ?_, (Disk.content_move ..).trans hcontent⟩
    rw [Disk.entry?_move d (Disk.ne_nil_of_file hentry) hne hentry, if_pos rfl]

/-- Storing a payload changes what is stored only when all of it is there, and then at
    once. -/
theorem stored?_of_effect (hunshared : d.IsUnshared c.Contains) (hlang : '/' ∉ lang.toList)
    (hfits : write.Fits c lang payload d) (hcall : write.call? c lang payload = some call)
    (hlike : call.IsLike call') (heffect : call'.Effect d d' result) :
    c.stored? lang d' = c.stored? lang d ∨
      write = .naming ∧ c.stored? lang d' = some payload := by
  have hne : place (c.path lang) ≠ place (c.tempPath lang) :=
    GrammarCache.path_ne_tempPath hlang hlang
  have hsame (havoids : call.Avoids d (place (c.path lang))) :
      c.stored? lang d' = c.stored? lang d :=
    GrammarCache.stored?_of_avoids hlang hunshared heffect
      (hlike.isWithin (isWithin_of_call? hlang hcall)) (hlike.avoids havoids)
  cases write with
  | preparing => exact .inl (hsame (by cases hcall; trivial))
  | opening => exact .inl (hsame (by cases hcall; exact hne))
  | filling n =>
    -- The open file is the temporary one, and has no other name.
    cases hcall
    exact .inl (hsame fun hq => hne (hunshared (GrammarCache.contains_path hlang)
      (GrammarCache.contains_tempPath hlang) hq hfits.1))
  | syncing n => exact .inl (hsame (by cases hcall; trivial))
  | naming =>
    cases hcall
    cases hlike
    cases result with
    | ok n => exact .inr ⟨rfl, stored?_of_rename hfits heffect⟩
    | error e =>
      cases heffect
      exact .inl rfl
  | discarding cause => exact .inl (hsame (by cases hcall; exact hne))
  | done r => cases hcall

/-- Directories are made at first, and never again. -/
theorem ne_makeDirs (hcall : write.call? c lang payload = some call) (hnot : write ≠ .preparing)
    (path : String) : call ≠ .makeDirs path := by
  cases write <;> cases hcall <;> first | exact absurd rfl hnot | exact nofun

/-- Storing the payload of one language is not about the files of another one. -/
theorem avoids_of_ne (hlang : '/' ∉ lang.toList) (hother : '/' ∉ other.toList) (hne : lang ≠ other)
    (hq : q = place (c.path lang) ∨ q = place (c.tempPath lang))
    (howns : ∀ n, write = .filling n → c.Owns other d n)
    (hcall : write.call? c other payload = some call) : call.Avoids d q := by
  -- Neither file of one language is a file of another.
  have hpath : q ≠ place (c.path other) := by
    rcases hq with rfl | rfl
    · exact fun h => hne (GrammarCache.eq_of_path hlang hother h)
    · exact (GrammarCache.path_ne_tempPath hother hlang).symm
  have htemp : q ≠ place (c.tempPath other) := by
    rcases hq with rfl | rfl
    · exact GrammarCache.path_ne_tempPath hlang hother
    · exact fun h => hne (GrammarCache.eq_of_tempPath hlang hother h)
  have hcontains : c.Contains q := by
    rcases hq with rfl | rfl
    · exact GrammarCache.contains_path hlang
    · exact GrammarCache.contains_tempPath hlang
  cases write with
  | filling n =>
    cases hcall
    exact fun h => ((howns n rfl).places q hcontains h).elim hpath htemp
  | naming =>
    cases hcall
    exact ⟨htemp, hpath⟩
  | opening =>
    cases hcall
    exact htemp
  | discarding cause =>
    cases hcall
    exact htemp
  | done r => cases hcall
  | _ =>
    cases hcall
    trivial

/-- A file that was opened to store a payload stays one of its language. -/
theorem owns_of_effect (hlang : '/' ∉ lang.toList) (hother : '/' ∉ other.toList)
    (howns : c.Owns lang d n) (hcall : write.call? c other payload = some call)
    (hlike : call.IsLike call') (heffect : call'.Effect d d' result) : c.Owns lang d' n := by
  constructor
  case lt_length => exact Nat.lt_of_lt_of_le howns.lt_length heffect.length_le
  case places =>
    intro q hcontains hq
    rcases heffect.entry?_eq_file hq with hq | ⟨rfl, _⟩ | ⟨source, target, rfl, rfl, hentry⟩
    · exact howns.places q hcontains hq
    · exact absurd howns.lt_length (Nat.lt_irrefl _)
    · -- Only a temporary file is renamed, to the file of the same language.
      have hpaths : source = c.tempPath other ∧ target = c.path other := by
        cases hlike
        cases write <;> cases hcall
        exact ⟨rfl, rfl⟩
      obtain ⟨rfl, rfl⟩ := hpaths
      rcases howns.places _ (GrammarCache.contains_tempPath hother) hentry with h | h
      · exact absurd h.symm (GrammarCache.path_ne_tempPath hlang hother)
      · exact .inl (by rw [GrammarCache.eq_of_tempPath hother hlang h])

/-- The temporary file that was opened belongs to the language that is stored. -/
theorem owns_next (hlang : '/' ∉ lang.toList) (hunshared : d.IsUnshared c.Contains)
    (hcall : write.call? c lang payload = some call) (heffect : call.Effect d d' result)
    (hnext : write.next result = .filling n) : c.Owns lang d' n := by
  cases write with
  | opening =>
    have hwithin := isWithin_of_call? hlang hcall
    cases hcall
    cases result with
    | error e => cases hnext
    | ok number =>
      cases hnext
      have hentry := heffect.of_create.1
      exact ⟨Disk.lt_length_of_entry hentry,
        fun p hp hn => .inr (heffect.isUnshared hunshared hwithin hp hwithin hn hentry)⟩
  | preparing => cases result <;> cases hnext
  | filling m => cases result <;> cases hnext
  | syncing m => cases result <;> cases hnext
  | naming => cases result <;> cases hnext
  | discarding cause => cases hnext
  | done r => cases hcall

end CacheWrite

end SymbolPaths
