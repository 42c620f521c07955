import SymbolPaths.Proofs.Disk.Effect

/-!
# Written files are read back

A file that was opened for writing is what its path leads to from then on. So what is written into
it is read at that path, as long as nothing else is done to the disk.

* `Disk.IsWritable`: whether a file can be opened at a path, with the directories above it made;
* `Disk.resolve_create`: what the path of an opened file leads to;
* `Disk.readText_writeFile`: a text that was written into a file is read there.

Opening a file looks at the path without the slashes at its end, and reading looks at all of it,
so these two have to be brought together first: a path that ends with a slash opens nothing. After
that the file is followed by its number, which no operation of writing or flushing changes.
-/

namespace SymbolPaths

theorem Text.decode?_encode (s : String) : decode? (encode s) = some s := by
  have hbytes : (⟨(encode s).toArray⟩ : ByteArray) = s.toByteArray := by
    rw [encode, Array.toArray_toList]
    rfl
  rw [decode?, hbytes, String.fromUTF8?, dif_pos s.isValidUTF8]
  rfl

/-- The last segment of a path that does not end with a slash is not empty. -/
theorem FilePath.getLast?_segments {path : String} (hne : path ≠ "")
    (h : endsWithSlash path = false) : (segments path).getLast? ≠ some "" := by
  intro hlast
  rw [segments, List.getLast?_map, Option.map_eq_some_iff] at hlast
  obtain ⟨piece, hpiece, htext⟩ := hlast
  obtain rfl : piece = [] := by simpa using htext
  obtain ⟨ps, hps⟩ := List.getLast?_eq_some_iff.1 hpiece
  have hjoin := Text.join_pieces '/' path.toList
  rw [hps] at hjoin
  by_cases hempty : ps = []
  · subst hempty
    exact hne (String.toList_eq_nil_iff.1 hjoin.symm)
  · rw [Text.join_concat_nil '/' hempty] at hjoin
    rw [endsWithSlash, ← hjoin, List.getLast?_concat] at h
    cases h

namespace Disk

variable {d d' : Disk} {place p : Place} {segs : List String} {path : String} {n : Nat}

/-- Where a path leads depends on the names only, and not on what files hold. -/
theorem resolve_of_entry?_eq (h : ∀ q, d'.entry? q = d.entry? q) (path : String) :
    d'.resolve path = d.resolve path := by
  have hwalk (place : Place) (segs : List String) : d'.walk place segs = d.walk place segs := by
    induction segs generalizing place with
    | nil => rfl
    | cons s segs ih => simp only [walk, h, ih]
  rw [resolve, resolve, hwalk]

theorem resolve_fill (d : Disk) (n : Nat) (bytes : Bytes) (path : String) :
    (d.fill n bytes).resolve path = d.resolve path := by
  have hentry (q : Place) : Disk.entry? (d.fill n bytes) q = d.entry? q := rfl
  exact resolve_of_entry?_eq hentry path

/-- Slashes at the end are all that may follow a new name, and there are none. -/
theorem eq_nil_of_all_empty (h : segs.all (· == "")) (hlast : segs.getLast? ≠ some "") :
    segs = [] := by
  cases hsegs : segs.getLast? with
  | none => exact List.getLast?_eq_none_iff.1 hsegs
  | some s =>
    have hs : s = "" := beq_iff_eq.1 (List.all_eq_true.1 h s (List.mem_of_getLast? hsegs))
    exact absurd (hs ▸ hsegs) hlast

/-- A new file is found where nothing was. -/
theorem walk_addFile (h : d.walk place segs = .ok (.absent p)) (hlast : segs.getLast? ≠ some "") :
    (d.addFile p).walk place segs = .ok (.file p d.contents.length) := by
  have hnone : d.entry? p = none := by
    obtain ⟨rfl, hnone⟩ := isAt_of_walk h
    exact hnone
  have hadd := entry?_addFile d (ne_nil_of_none hnone)
  induction segs generalizing place with
  | nil => cases h
  | cons s segs ih =>
    have hrest : segs.getLast? ≠ some "" := by
      cases segs with
      | nil => simp
      | cons s' segs => rwa [List.getLast?_cons_cons] at hlast
    rw [walk] at h ⊢
    split
    · next hhere => exact ih (by rwa [if_pos hhere] at h) hrest
    · next hhere =>
      rw [if_neg hhere] at h
      split
      · next hup => exact ih (by rwa [if_pos hup] at h) hrest
      · next hup =>
        rw [if_neg hup] at h
        rw [hadd]
        split at h
        · -- A directory is on the way, which is no new file.
          next hentry =>
          have hother : place ++ [s] ≠ p := by
            rintro rfl
            cases hnone.symm.trans hentry
          rw [if_neg hother, hentry]
          exact ih h hrest
        · split at h <;> cases h
        · next hentry =>
          split at h
          · next hend =>
            cases h
            rw [if_pos rfl, eq_nil_of_all_empty hend hrest]
            rfl
          · cases h

/-- What the path of a file leads to that was opened for writing. -/
theorem resolve_create (h : d.create path = (d', .ok n)) :
    ∃ p, d'.resolve path = .ok (.file p n) := by
  rw [create] at h
  cases hslash : FilePath.endsWithSlash path with
  | true =>
    simp only [hslash, if_true] at h
    split at h <;> cases h
  | false =>
    rw [FilePath.trimSlashes_eq hslash] at h
    simp only [hslash, Bool.false_eq_true, if_false] at h
    -- A file that was there is emptied in its place; one that was not is made where the path leads.
    cases hresolve : d.resolve path with
    | error e =>
      rw [hresolve] at h
      cases h
    | ok target =>
      rw [hresolve] at h
      cases target with
      | directory p => cases h
      | file p m =>
        cases h
        exact ⟨p, (resolve_fill ..).trans hresolve⟩
      | absent p =>
        cases h
        refine ⟨p, ?_⟩
        rw [resolve] at hresolve ⊢
        split at hresolve
        · cases hresolve
        · next hne =>
          rw [if_neg hne]
          exact walk_addFile hresolve (FilePath.getLast?_segments hne hslash)

/-- A file that was opened for writing was created. -/
theorem lt_length_of_create (h : d.create path = (d', .ok n)) : n < d'.contents.length := by
  obtain ⟨p, hresolve⟩ := resolve_create h
  exact lt_length_of_entry (resolve_eq_file hresolve).2

/-- Whether a file can be opened for writing at a path, after the directories above it were made
    as needed. -/
structure IsWritable (d : Disk) (path : String) : Prop where
  /-- The directories above the file can be made, or are there. -/
  makes : (d.makeDirs (FilePath.parent path)).2 = .ok ()
  /-- The file can be opened then. -/
  opens : ∃ n, ((d.makeDirs (FilePath.parent path)).1.create path).2 = .ok n

/-- A text that was written into a file is read there. -/
theorem readText_writeFile (h : (d.create path).2 = .ok n) (text : String) :
    (d.writeFile path (Text.encode text)).2 = .ok () ∧
      (d.writeFile path (Text.encode text)).1.readText path = .ok text := by
  obtain ⟨d', hcreate⟩ : ∃ d', d.create path = (d', .ok n) := ⟨_, Prod.ext rfl h⟩
  obtain ⟨p, hresolve⟩ := resolve_create hcreate
  have hresolve' : (d'.write n 0 (Text.encode text)).resolve path = .ok (.file p n) :=
    (resolve_fill ..).trans hresolve
  have hcontent := content_write (lt_length_of_create hcreate) (content_create hcreate)
    (Text.encode text)
  rw [writeFile, hcreate]
  refine ⟨rfl, ?_⟩
  have hread : Disk.read (d'.write n 0 (Text.encode text)) path = .ok (Text.encode text) := by
    rw [read, hresolve']
    exact congrArg Except.ok hcontent
  simp only [readText, hread, bind, Except.bind, Text.decode?_encode]

end Disk

end SymbolPaths
