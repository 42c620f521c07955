import SymbolPaths.Disk.Basic

/-!
# Places on the disk

Where a path leads, if it leads anywhere, does not depend on what is on the disk: each
segment stays, leads one directory up, or one down. So the places of two paths can be
told apart once and for all.

* `FilePath.place`: the place that a path leads to;
* `FilePath.place_join`: a name in a directory has the place of the directory, and the name;
* `Disk.entry?_set` and others: what is at a place after a change;
* `Disk.resolve_eq_file` and `Disk.resolve_eq_absent`: what a path leads to is at its
  place.

A path that leads through `..` has a place as well: the disk has no links from one directory into
another, so going up always undoes the last step down, and above the top there is nothing but the
top. The disk decides only whether the way is open, which is what `Disk.walk` checks at every
segment.
-/

namespace SymbolPaths

namespace FilePath

/-- The place that segments lead to from a place. -/
def placeFrom (place : Place) : List String → Place
  | [] => place
  | s :: rest =>
    if isHere s then placeFrom place rest
    else if s = ".." then placeFrom place.dropLast rest
    else placeFrom (place ++ [s]) rest

/-- The place that a path leads to. -/
def place (path : String) : Place := placeFrom [] (segments path)

/-- Whether a text names something in a directory, other than itself and the one above. -/
structure IsName (name : String) : Prop where
  /-- It is not empty, nor the directory itself. -/
  not_here : isHere name = false
  /-- It is not the directory above. -/
  not_up : name ≠ ".."
  /-- It is one segment. -/
  no_slash : '/' ∉ name.toList

theorem IsName.ne_empty {name : String} (h : IsName name) : name ≠ "" := by
  rintro rfl
  cases h.not_here

variable {q : Place} {segs rest : List String} {name : String}

/-- Slashes alone lead nowhere else. -/
theorem placeFrom_of_all_empty (h : segs.all (· == "")) : placeFrom q segs = q := by
  induction segs with
  | nil => rfl
  | cons s segs ih =>
    rw [List.all_cons, Bool.and_eq_true] at h
    rw [placeFrom, if_pos (by rw [isHere, h.1, Bool.true_or]), ih h.2]

/-- Segments are followed one after another, so the last of them may be followed apart from the
    first. -/
theorem placeFrom_append (segs rest : List String) :
    placeFrom q (segs ++ rest) = placeFrom (placeFrom q segs) rest := by
  induction segs generalizing q with
  | nil => rfl
  | cons s segs ih => simp only [List.cons_append, placeFrom, ih, ← apply_ite (placeFrom · rest)]

theorem placeFrom_name (h : IsName name) : placeFrom q [name] = q ++ [name] := by
  rw [placeFrom, if_neg (Bool.eq_false_iff.1 h.not_here), if_neg h.not_up, placeFrom]

/-- The path of a name in a directory has the segments of the directory, and the name. -/
theorem exists_segments_join (dir : String) :
    ∃ front, (∀ name, IsName name → segments (join dir name) = front ++ [name]) ∧
      (segments dir = front ∨ segments dir = front ++ [""]) := by
  have hname {name : String} (h : IsName name) : segments name = [name] := by
    rw [segments, Text.pieces_of_not_mem h.no_slash, List.map_singleton, String.ofList_toList]
  have hslash (front name : String) (h : segments name = [name]) :
      segments (front ++ "/" ++ name) = segments front ++ [name] := by
    have htext : (front ++ "/" ++ name).toList = front.toList ++ '/' :: name.toList := by
      simp [String.toList_append]
    rw [segments, htext, Text.pieces_append_delimiter, List.map_append]
    exact congrArg (segments front ++ ·) h
  -- A directory's text may be empty, may end with a slash, or may need one before the name.
  by_cases hempty : dir = ""
  · refine ⟨[], fun name h => by rw [join, if_pos hempty, hname h]; rfl, .inr ?_⟩
    rw [hempty]
    rfl
  · by_cases hlast : dir.toList.getLast? = some '/'
    · obtain ⟨front, hfront⟩ := List.getLast?_eq_some_iff.1 hlast
      have hdir : dir = String.ofList front ++ "/" := by
        rw [← String.toList_inj, hfront, String.toList_append, String.toList_ofList]
        rfl
      refine ⟨segments (String.ofList front), fun name h => ?_, .inr ?_⟩
      · rw [join, if_neg hempty, if_pos hlast, hdir, hslash _ _ (hname h)]
      · rw [hdir, ← hslash _ "" rfl, String.append_empty]
    · refine ⟨segments dir, fun name h => ?_, .inl rfl⟩
      rw [join, if_neg hempty, if_neg hlast, hslash _ _ (hname h)]

/-- The place of a name in a directory. -/
theorem place_join (dir : String) (h : IsName name) :
    place (join dir name) = place dir ++ [name] := by
  obtain ⟨front, hfront, hdir⟩ := exists_segments_join dir
  have hplace : place dir = placeFrom [] front := by
    rcases hdir with hdir | hdir
    · rw [place, hdir]
    · rw [place, hdir, placeFrom_append, placeFrom_of_all_empty rfl]
  rw [place, hfront name h, placeFrom_append, placeFrom_name h, hplace]

/-- Two names in one directory have two places. -/
theorem eq_of_place_join {dir name' : String} (hname : IsName name) (hname' : IsName name')
    (h : place (join dir name) = place (join dir name')) : name = name' := by
  rw [place_join dir hname, place_join dir hname'] at h
  exact List.singleton_inj.1 (List.append_cancel_left h)

end FilePath

namespace Disk

variable {d : Disk} {place q : Place} {e : DiskEntry} {segs : List String} {path : String}
  {number : Nat}

/-- Taking the entries of a place away leaves those of the other places. -/
theorem lookup_filter {entries : List (Place × DiskEntry)} (hq : q ≠ place) :
    (entries.filter (·.1 ≠ place)).lookup q = entries.lookup q := by
  induction entries with
  | nil => rfl
  | cons entry entries ih =>
    obtain ⟨p, e⟩ := entry
    by_cases hp : p = place
    · have hqp : (q == p) = false := beq_eq_false_iff_ne.2 (hp ▸ hq)
      rw [List.filter_cons_of_neg (by simpa using hp), ih, List.lookup_cons, hqp]
    · rw [List.filter_cons_of_pos (by simpa using hp), List.lookup_cons, List.lookup_cons, ih]

/-- What a place is made to hold is found there, and at no other place. -/
theorem entry?_set (d : Disk) (hplace : place ≠ []) {e : DiskEntry}
    (h : e.IsBelow d.contents.length) (q : Place) :
    Disk.entry? (d.set place e h) q = if q = place then some e else d.entry? q := by
  rw [ entry?, entry?, set, List.lookup_cons]
  by_cases hq : q = place
  · simp [hq, hplace]
  · rw [if_neg hq, beq_eq_false_iff_ne.2 hq, without, lookup_filter hq]

/-- At a place that holds nothing nothing is found. -/
theorem entry?_unset (d : Disk) (hplace : place ≠ []) (q : Place) :
    Disk.entry? (d.unset place) q = if q = place then none else d.entry? q := by
  have hentries : (d.unset place).entries = d.entries.filter (·.1 ≠ place) := rfl
  rw [ entry?, entry?, hentries]
  by_cases hq : q = place
  · rw [if_pos hq, if_neg (hq ▸ hplace), List.lookup_eq_none_iff]
    simpa [hq] using fun _ _ _ hne => Ne.symm hne
  · rw [if_neg hq, lookup_filter hq]

theorem entry?_addDirectory (d : Disk) (hplace : place ≠ []) (q : Place) :
    Disk.entry? (d.addDirectory place) q = if q = place then some .directory else d.entry? q :=
  entry?_set d hplace _ q

theorem entry?_addFile (d : Disk) (hplace : place ≠ []) (q : Place) :
    Disk.entry? (d.addFile place) q =
      if q = place then some (.file d.contents.length) else d.entry? q :=
  entry?_set d.allot hplace _ q

/-- What is at a place is found at another one when it was moved there. -/
theorem entry?_move (d : Disk) (hplace : place ≠ []) (hq : q ≠ [])
    (h : d.entry? place = some e) (x : Place) : Disk.entry? (d.move place q) x =
      if x = q then some e else if x = place then none else d.entry? x := by
  rw [ entry?, if_neg hplace] at h
  rw [move]
  split
  · next hnone => cases hnone.symm.trans h
  · next e' hsome =>
    obtain rfl := Option.some.inj (hsome.symm.trans h)
    rw [entry?_set _ hq, entry?_unset d hplace]

/-- No file is touched when names are. -/
theorem contents_move (d : Disk) (place q : Place) : (d.move place q).contents = d.contents := by
  rw [move]
  split <;> rfl

/-- A file that has a name was created. -/
theorem lt_length_of_entry (h : d.entry? q = some (.file number)) :
    number < d.contents.length := by
  rw [ entry?] at h
  split at h
  · cases h
  · exact d.isBelow_of_lookup h

/-- What is at the end of a path, as far as it is no directory. -/
def Target.IsAt (d : Disk) (place : Place) : Target → Prop
  | .directory _ => True
  | .file p number => p = place ∧ d.entry? place = some (.file number)
  | .absent p => p = place ∧ d.entry? place = none

/-- Where a walk over the disk ends is the place of the segments, by induction on them: the disk
    decides only whether the walk goes on. -/
theorem isAt_of_walk {t : Target} (h : d.walk place segs = .ok t) :
    t.IsAt d (FilePath.placeFrom place segs) := by
  -- A file can stop the walk at its last segment only; nothing, where only empty segments follow.
  induction segs generalizing place with
  | nil =>
    cases h
    trivial
  | cons s segs ih =>
    rw [walk] at h
    rw [FilePath.placeFrom]
    split
    · next hhere => exact ih (by rwa [if_pos hhere] at h)
    · next hhere =>
      rw [if_neg hhere] at h
      split
      · next hup => exact ih (by rwa [if_pos hup] at h)
      · next hup =>
        rw [if_neg hup] at h
        split at h
        · exact ih h
        · next number hentry =>
          split at h
          · next hend =>
            cases h
            rw [List.isEmpty_iff.1 hend]
            exact ⟨rfl, hentry⟩
          · cases h
        · next hentry =>
          split at h
          · next hend =>
            cases h
            rw [FilePath.placeFrom_of_all_empty hend]
            exact ⟨rfl, hentry⟩
          · cases h

theorem isAt_of_resolve {t : Target} (h : d.resolve path = .ok t) :
    t.IsAt d (FilePath.place path) := by
  rw [resolve] at h
  split at h
  · cases h
  · exact isAt_of_walk h

/-- If a path leads to a file, that is at the place of the path. -/
theorem resolve_eq_file (h : d.resolve path = .ok (.file place number)) :
    place = FilePath.place path ∧ d.entry? place = some (.file number) := by
  obtain ⟨rfl, hentry⟩ := isAt_of_resolve h
  exact ⟨rfl, hentry⟩

/-- If a path leads to a name that is not there, nothing is at the place of the path. -/
theorem resolve_eq_absent (h : d.resolve path = .ok (.absent place)) :
    place = FilePath.place path ∧ d.entry? place = none := by
  obtain ⟨rfl, hentry⟩ := isAt_of_resolve h
  exact ⟨rfl, hentry⟩

end Disk

end SymbolPaths
