import SymbolPaths.Proofs.Disk.Effect

/-!
# Directories

A path leads through directories, and only its last name tells what is at its end. So what
the names in a directory lead to depends on whether one gets to the directory, and on what is
at their places. Directories are made and never go, so once one gets to a directory, one gets
there for good, and making it does nothing any more.

* `Disk.directory?`: the place of a directory, if one gets there;
* `Disk.resolve_join`: what a name in a directory leads to;
* `Disk.makeDirs_of_between`: a directory that was made in part is made as if it were not;
* `DiskCall.directory?_perform`: no operation closes the way to a directory.

Directories are made one by one along a path, so most of this is by induction on the segments,
with the disk changing on the way. Two facts carry these inductions. What is made later adds
entries and takes none away (`Disk.Extends`), so a directory that was passed is still there at the
end. And on a disk where everything is in a directory (`Disk.IsTree`) there is nothing below what
is not there, so the first directory that has to be made is empty, and so are those that are made
in it. This is why making the directory of a path brings nothing to light at its end, unless the
path leads up again from a directory that was missing: then its end may be a directory that was
there before.
-/

namespace SymbolPaths

namespace Disk

/-- The place that segments lead to from a place, through directories only. -/
def descend? (d : Disk) (place : Place) : List String → Option Place
  | [] => some place
  | s :: rest =>
    if FilePath.isHere s then d.descend? place rest
    else if s = ".." then d.descend? place.dropLast rest
    else if d.entry? (place ++ [s]) = some .directory then d.descend? (place ++ [s]) rest
    else none

/-- The place of a directory, if one gets there. -/
def directory? (d : Disk) (dir : String) : Option Place :=
  d.descend? [] (FilePath.segments dir)

/-- What is at a place. -/
def target (d : Disk) (q : Place) : Target :=
  match d.entry? q with
  | some .directory => .directory q
  | some (.file number) => .file q number
  | none => .absent q

variable {d d' : Disk} {place p q : Place} {segs : List String} {dir name : String}

theorem Extends.entry?_eq (h : d.Extends d') (h' : d'.Extends d) (q : Place) :
    d'.entry? q = d.entry? q := by
  cases hd : d.entry? q with
  | some e => exact h.kept hd
  | none =>
    cases hd' : d'.entry? q with
    | none => rfl
    | some e => cases hd.symm.trans (h'.kept hd')

/-- What has a directory more than a disk is more than the disk with that directory. -/
theorem Extends.addDirectory (h : d.Extends d') (hne : q ≠ [])
    (hq : d'.entry? q = some .directory) : (d.addDirectory q).Extends d' := by
  refine ⟨h.contents_eq, fun {q' e} hq' => ?_, fun {q' n} hq' => ?_⟩
  · rw [entry?_addDirectory d hne] at hq'
    split at hq'
    · next hplace => rw [hplace, hq, hq']
    · exact h.kept hq'
  · rw [entry?_addDirectory d hne, if_neg]
    · exact h.no_file hq'
    · rintro rfl
      cases hq.symm.trans hq'

/-! ### The way to a directory -/

/-- The directory that one gets to is at the place of the segments. -/
theorem placeFrom_of_descend? (h : d.descend? place segs = some p) :
    FilePath.placeFrom place segs = p := by
  induction segs generalizing place with
  | nil => exact Option.some.inj h
  | cons s segs ih =>
    rw [descend?] at h
    rw [FilePath.placeFrom]
    split at h
    · next hhere =>
      rw [if_pos hhere]
      exact ih h
    · next hhere =>
      rw [if_neg hhere]
      split at h
      · next hup =>
        rw [if_pos hup]
        exact ih h
      · next hup =>
        rw [if_neg hup]
        split at h
        · exact ih h
        · cases h

theorem place_of_directory? (h : d.directory? dir = some p) : FilePath.place dir = p :=
  placeFrom_of_descend? h

/-- Where directories are, the way through them is open. -/
theorem descend?_of_kept (hkept : ∀ q, d.entry? q = some .directory → d'.entry? q = some .directory)
    (h : d.descend? place segs = some p) : d'.descend? place segs = some p := by
  induction segs generalizing place with
  | nil => exact h
  | cons s segs ih =>
    rw [descend?] at h ⊢
    split at h
    · next hhere =>
      rw [if_pos hhere]
      exact ih h
    · next hhere =>
      rw [if_neg hhere]
      split at h
      · next hup =>
        rw [if_pos hup]
        exact ih h
      · next hup =>
        rw [if_neg hup]
        split at h
        · next hentry =>
          rw [if_pos (hkept _ hentry)]
          exact ih h
        · cases h

/-- A last segment that repeats the directory leads nowhere else. -/
theorem descend?_append_empty : d.descend? place (segs ++ [""]) = d.descend? place segs := by
  induction segs generalizing place with
  | nil => rfl
  | cons s segs ih => simp only [List.cons_append, descend?, ih]

theorem walk_append_name (hname : FilePath.IsName name) :
    (d.walk place (segs ++ [name])).toOption =
      (d.descend? place segs).map fun p => d.target (p ++ [name]) := by
  -- A file or nothing on the way stops both, since the name is still to come.
  induction segs generalizing place with
  | nil =>
    rw [List.nil_append, walk, if_neg (Bool.eq_false_iff.1 hname.not_here), if_neg hname.not_up,
      descend?, Option.map_some, target]
    cases d.entry? (place ++ [name]) with
    | none => rfl
    | some e => cases e <;> rfl
  | cons s segs ih =>
    rw [List.cons_append, walk, descend?]
    split
    · exact ih
    · split
      · exact ih
      · split
        · next hentry =>
          rw [if_pos hentry]
          exact ih
        · next number hentry =>
          have hnot : d.entry? (place ++ [s]) ≠ some .directory := by simp [hentry]
          have hrest : ¬(segs ++ [name]).isEmpty := by simp
          rw [if_neg hnot, if_neg hrest]
          rfl
        · next hentry =>
          have hnot : d.entry? (place ++ [s]) ≠ some .directory := by simp [hentry]
          have hrest : ¬(segs ++ [name]).all (· == "") := by simp [hname.ne_empty]
          rw [if_neg hnot, if_neg hrest]
          rfl

/-- What a name in a directory leads to. -/
theorem resolve_join (hname : FilePath.IsName name) :
    (d.resolve (FilePath.join dir name)).toOption =
      (d.directory? dir).map fun p => d.target (p ++ [name]) := by
  obtain ⟨front, hfront, hdir⟩ := FilePath.exists_segments_join dir
  have hdescend : d.descend? [] (FilePath.segments dir) = d.descend? [] front := by
    rcases hdir with hdir | hdir
    · rw [hdir]
    · rw [hdir, descend?_append_empty]
  have hne : FilePath.join dir name ≠ "" := by
    intro h
    have hsegs := hfront name hname
    rw [h, show FilePath.segments "" = [""] from rfl] at hsegs
    exact hname.ne_empty (by simpa using (congrArg List.getLast? hsegs).symm)
  rw [resolve, if_neg hne, hfront name hname, directory?, hdescend]
  exact walk_append_name hname

theorem resolve_join_of_directory? (hname : FilePath.IsName name) (h : d.directory? dir = some p) :
    d.resolve (FilePath.join dir name) = .ok (d.target (p ++ [name])) := by
  have hresolve : (d.resolve (FilePath.join dir name)).toOption = _ := resolve_join hname
  rw [h] at hresolve
  cases hpath : d.resolve (FilePath.join dir name) with
  | error e => simp [hpath, Except.toOption] at hresolve
  | ok t => simpa [hpath, Except.toOption] using hresolve

/-- The way to a directory stays open while no directory goes. -/
theorem directory?_of_kept
    (hkept : ∀ q, d.entry? q = some .directory → d'.entry? q = some .directory)
    (h : d.directory? dir = some p) : d'.directory? dir = some p :=
  descend?_of_kept hkept h

/-! ### Files in a directory -/

theorem endsWithSlash_join (hname : FilePath.IsName name) :
    FilePath.endsWithSlash (FilePath.join dir name) = false := by
  have hlast (front : String) : FilePath.endsWithSlash (front ++ name) = false := by
    have hlist : name.toList ≠ [] := fun h => hname.ne_empty (String.toList_eq_nil_iff.1 h)
    rw [FilePath.endsWithSlash, beq_eq_false_iff_ne, String.toList_append, List.getLast?_append,
      Option.or_of_isSome (by simpa using hlist)]
    exact fun h => hname.no_slash (List.mem_of_getLast? h)
  rw [FilePath.join]
  split
  · exact String.empty_append (s := name) ▸ hlast ""
  · split <;> exact hlast _

/-- Opening a file in a directory. -/
theorem create_join (hname : FilePath.IsName name) (h : d.directory? dir = some p) :
    d.create (FilePath.join dir name) = match d.entry? (p ++ [name]) with
      | some .directory => (d, .error .isADirectory)
      | some (.file n) => (d.fill n [], .ok n)
      | none => (d.addFile (p ++ [name]), .ok d.contents.length) := by
  have hslash : FilePath.endsWithSlash (FilePath.join dir name) = false :=
    endsWithSlash_join hname
  rw [create, FilePath.trimSlashes_eq hslash, resolve_join_of_directory? hname h, target, hslash]
  cases d.entry? (p ++ [name]) with
  | none => rfl
  | some e => cases e <;> rfl

/-- Giving a file in a directory another name there. -/
theorem rename_join {name' : String} (hname : FilePath.IsName name)
    (hname' : FilePath.IsName name') (h : d.directory? dir = some p) :
    d.rename (FilePath.join dir name) (FilePath.join dir name') =
      match d.entry? (p ++ [name]), d.entry? (p ++ [name']) with
      | none, _ => (d, .error .notFound)
      | some .directory, _ => (d, .error .isADirectory)
      | some (.file _), some .directory => (d, .error .isADirectory)
      | some (.file _), _ => (d.move (p ++ [name]) (p ++ [name']), .ok ()) := by
  rw [rename, resolve_join_of_directory? hname h, resolve_join_of_directory? hname' h, target,
    target]
  cases d.entry? (p ++ [name]) with
  | none => rfl
  | some e =>
    cases e with
    | directory => rfl
    | file n =>
      cases d.entry? (p ++ [name']) with
      | none => rfl
      | some e' => cases e' <;> rfl

/-- Removing a file in a directory. -/
theorem remove_join (hname : FilePath.IsName name) (h : d.directory? dir = some p) :
    d.remove (FilePath.join dir name) = match d.entry? (p ++ [name]) with
      | none => (d, .error .notFound)
      | some .directory => (d, .error .isADirectory)
      | some (.file _) => (d.unset (p ++ [name]), .ok ()) := by
  rw [remove, resolve_join_of_directory? hname h, target]
  cases d.entry? (p ++ [name]) with
  | none => rfl
  | some e => cases e <;> rfl

/-! ### Making a directory -/

theorem makeAlong_of_descend? (h : d.descend? place segs = some p) :
    d.makeAlong place segs = (d, .ok ()) := by
  induction segs generalizing place with
  | nil => rfl
  | cons s segs ih =>
    rw [descend?] at h
    rw [makeAlong]
    split at h
    · next hhere =>
      rw [if_pos hhere]
      exact ih h
    · next hhere =>
      rw [if_neg hhere]
      split at h
      · next hup =>
        rw [if_pos hup]
        exact ih h
      · next hup =>
        rw [if_neg hup]
        split at h
        · next hentry =>
          rw [hentry]
          exact ih h
        · cases h

theorem descend?_makeAlong (h : (d.makeAlong place segs).2 = .ok ()) :
    ∃ p, (d.makeAlong place segs).1.descend? place segs = some p := by
  -- What is made later adds entries only, so a directory passed on the way is still there at the
  -- end.
  induction segs generalizing d place with
  | nil => exact ⟨place, rfl⟩
  | cons s segs ih =>
    rw [makeAlong] at h ⊢
    rw [descend?]
    split
    · next hhere =>
      rw [if_pos hhere] at h
      exact ih h
    · next hhere =>
      rw [if_neg hhere] at h
      split
      · next hup =>
        rw [if_pos hup] at h
        exact ih h
      · next hup =>
        rw [if_neg hup] at h
        cases hentry : d.entry? (place ++ [s]) with
        | some e =>
          rw [hentry] at h
          cases e with
          | directory =>
            rw [if_pos ((extends_makeAlong ..).kept hentry)]
            exact ih h
          | file number => cases h
        | none =>
          rw [hentry] at h
          dsimp only at h ⊢
          split at h
          · cases h
          · next hdot =>
            rw [if_neg hdot]
            have hmade : Disk.entry? (d.addDirectory (place ++ [s])) (place ++ [s]) =
                some .directory :=
              (entry?_addDirectory d (ne_nil_of_none hentry) _).trans (if_pos rfl)
            rw [if_pos ((extends_makeAlong ..).kept hmade)]
            exact ih h

/-- What was made in part is made as if it were not: the rest comes to it, and it ends in the
    same way. -/
theorem makeAlong_of_between (h : d.Extends d') (h' : d'.Extends (d.makeAlong place segs).1) :
    (d'.makeAlong place segs).2 = (d.makeAlong place segs).2 ∧
      ∀ q, Disk.entry? (d'.makeAlong place segs).1 q =
        Disk.entry? (d.makeAlong place segs).1 q := by
  induction segs generalizing d d' place with
  | nil => exact ⟨rfl, h.entry?_eq h'⟩
  | cons s segs ih =>
    rw [makeAlong] at h'
    rw [makeAlong, makeAlong]
    split
    · next hhere =>
      rw [if_pos hhere] at h'
      exact ih h h'
    · next hhere =>
      rw [if_neg hhere] at h'
      split
      · next hup =>
        rw [if_pos hup] at h'
        exact ih h h'
      · next hup =>
        rw [if_neg hup] at h'
        cases hentry : d.entry? (place ++ [s]) with
        | some e =>
          rw [h.kept hentry]
          rw [hentry] at h'
          cases e with
          | directory => exact ih h h'
          | file number => exact ⟨rfl, h.entry?_eq h'⟩
        | none =>
          rw [hentry] at h'
          dsimp only at h' ⊢
          have hne : place ++ [s] ≠ [] := ne_nil_of_none hentry
          split at h'
          · next hdot =>
            -- Nothing is made, so the directory is not there on the other disk either.
            simp only [h.entry?_eq h', hentry, if_pos hdot, and_self, implies_true]
          · next hdot =>
            have hmade : Disk.entry? ((d.addDirectory (place ++ [s])).makeAlong (place ++ [s])
                segs).1 (place ++ [s]) = some .directory :=
              (extends_makeAlong ..).kept ((entry?_addDirectory d hne _).trans (if_pos rfl))
            simp only [if_neg hdot]
            cases hentry' : d'.entry? (place ++ [s]) with
            | some e =>
              obtain rfl : e = .directory := by simpa [hmade] using (h'.kept hentry').symm
              exact ih (h.addDirectory hne hentry') h'
            | none =>
              have hmade' : Disk.entry? (d'.addDirectory (place ++ [s])) (place ++ [s]) =
                  some .directory := (entry?_addDirectory d' hne _).trans (if_pos rfl)
              exact ih ((h.trans (extends_addDirectory hentry')).addDirectory hne hmade')
                (h'.addDirectory hne hmade)

/-- Whether everything is in a directory. -/
def IsTree (d : Disk) : Prop :=
  ∀ q s, ( d.entry? (q ++ [s])).isSome → d.entry? q = some .directory

theorem isTree_empty : Disk.empty.IsTree := by
  intro q s h
  rw [ entry?, if_neg (by simp)] at h
  cases h

/-- There is nothing below what is not there. -/
theorem IsTree.entry?_append_eq_none (h : d.IsTree) (hq : d.entry? q = none) (below : Place) :
    d.entry? (q ++ below) = none := by
  induction below generalizing q with
  | nil => rwa [List.append_nil]
  | cons s below ih =>
    rw [List.append_cons]
    refine ih (Option.eq_none_iff_forall_ne_some.2 fun e he => ?_)
    cases hq.symm.trans (h q s (by rw [he]; rfl))

/-- A directory that is made in an empty one is empty. -/
theorem entry?_makeAlong_of_bare (hup : ".." ∉ segs)
    (hbare : ∀ s below, d.entry? (place ++ s :: below) = none)
    (h : (d.makeAlong place segs).1.descend? place segs = some p) (name : String) :
    Disk.entry? (d.makeAlong place segs).1 (p ++ [name]) = none := by
  -- Each directory made keeps the places below the next one bare.
  induction segs generalizing d place with
  | nil =>
    obtain rfl := Option.some.inj h
    exact hbare name []
  | cons s segs ih =>
    obtain ⟨hs, hsegs⟩ := not_or.1 (mt List.mem_cons.2 hup)
    have hnone : d.entry? (place ++ [s]) = none := hbare s []
    rw [makeAlong, hnone] at h ⊢
    dsimp only at h ⊢
    rw [descend?] at h
    split
    · next hhere =>
      simp only [if_pos hhere] at h
      exact ih hsegs hbare h
    · next hhere =>
      rw [if_neg (Ne.symm hs)]
      simp only [if_neg hhere, if_neg (Ne.symm hs)] at h
      split
      · next hdot =>
        rw [if_pos hdot, hnone, if_neg (by simp)] at h
        cases h
      · next hdot =>
        rw [if_neg hdot] at h
        split at h
        · refine ih hsegs (fun s' below => ?_) h
          rw [entry?_addDirectory d (ne_nil_of_none hnone), if_neg (by simp), List.append_assoc]
          exact hbare s (s' :: below)
        · cases h

theorem entry?_makeAlong_of_descend? (htree : d.IsTree) (hup : ".." ∉ segs)
    (hnone : d.descend? place segs = none)
    (h : (d.makeAlong place segs).1.descend? place segs = some p) (name : String) :
    Disk.entry? (d.makeAlong place segs).1 (p ++ [name]) = none := by
  -- The way down is walked along what is there; past the first missing segment all is new, and so
  -- empty.
  induction segs generalizing d place with
  | nil => cases hnone
  | cons s segs ih =>
    obtain ⟨hs, hsegs⟩ := not_or.1 (mt List.mem_cons.2 hup)
    rw [makeAlong] at h ⊢
    rw [descend?] at h hnone
    split
    · next hhere =>
      simp only [if_pos hhere] at h hnone
      exact ih htree hsegs hnone h
    · next hhere =>
      rw [if_neg (Ne.symm hs)]
      simp only [if_neg hhere, if_neg (Ne.symm hs)] at h hnone
      cases hentry : d.entry? (place ++ [s]) with
      | some e =>
        rw [hentry] at h hnone
        cases e with
        | directory =>
          rw [if_pos rfl] at hnone
          rw [if_pos ((extends_makeAlong ..).kept hentry)] at h
          exact ih htree hsegs hnone h
        | file number =>
          dsimp only at h
          rw [hentry, if_neg (by simp)] at h
          cases h
      | none =>
        rw [hentry] at h
        dsimp only at h ⊢
        split
        · next hdot =>
          rw [if_pos hdot, hentry, if_neg (by simp)] at h
          cases h
        · next hdot =>
          rw [if_neg hdot] at h
          split at h
          · refine entry?_makeAlong_of_bare hsegs (fun s' below => ?_) h name
            rw [entry?_addDirectory d (ne_nil_of_none hentry), if_neg (by simp)]
            exact htree.entry?_append_eq_none hentry (s' :: below)
          · cases h

/-- A directory to which one gets is there already. -/
theorem makeDirs_of_directory? (h : d.directory? dir = some p) : d.makeDirs dir = (d, .ok ()) :=
  makeAlong_of_descend? h

/-- A directory to which one does not get is empty when it is made, if the way to it does not
    lead up. -/
theorem entry?_makeDirs_of_directory? (htree : d.IsTree) (hup : ".." ∉ FilePath.segments dir)
    (hnone : d.directory? dir = none) (h : (d.makeDirs dir).1.directory? dir = some p)
    (name : String) : Disk.entry? (d.makeDirs dir).1 (p ++ [name]) = none :=
  entry?_makeAlong_of_descend? htree hup hnone h name

/-- One gets to a directory that was made. -/
theorem directory?_makeDirs (h : (d.makeDirs dir).2 = .ok ()) :
    ∃ p, (d.makeDirs dir).1.directory? dir = some p :=
  descend?_makeAlong h

/-- A directory that was made in part is made as if it were not. -/
theorem makeDirs_of_between (h : d.Extends d') (h' : d'.Extends (d.makeDirs dir).1) :
    (d'.makeDirs dir).2 = (d.makeDirs dir).2 ∧
      ∀ q, Disk.entry? (d'.makeDirs dir).1 q = Disk.entry? (d.makeDirs dir).1 q :=
  makeAlong_of_between h h'

end Disk

namespace DiskCall

variable {d d' : Disk} {call : DiskCall} {result : Except IoError Nat} {q p : Place} {dir : String}

/-- An operation that makes no directories is about nothing but what it is not to avoid. -/
theorem Effect.entry?_eq (h : Effect d call d' result) (havoids : call.Avoids d q)
    (hmakes : ∀ path, call ≠ .makeDirs path) : d'.entry? q = d.entry? q := by
  cases h with
  | makes => exact absurd rfl (hmakes _)
  | opens hnone => rw [Disk.entry?_addFile d (Disk.ne_nil_of_none hnone), if_neg havoids]
  | renames hn hne =>
    rw [Disk.entry?_move d (Disk.ne_nil_of_file hn) hne hn, if_neg havoids.2, if_neg havoids.1]
  | removes hn => rw [Disk.entry?_unset d (Disk.ne_nil_of_file hn), if_neg havoids]
  | _ => rfl

/-- An operation that makes no directories makes no directory of anything. -/
theorem Effect.entry?_of_directory (h : Effect d call d' result)
    (hmakes : ∀ path, call ≠ .makeDirs path) (hq : d'.entry? q = some .directory) :
    d.entry? q = some .directory := by
  cases h with
  | makes => exact absurd rfl (hmakes _)
  | opens hnone =>
    rw [Disk.entry?_addFile d (Disk.ne_nil_of_none hnone)] at hq
    split at hq
    · cases hq
    · exact hq
  | renames hn hne =>
    rw [Disk.entry?_move d (Disk.ne_nil_of_file hn) hne hn] at hq
    split at hq
    · cases hq
    · split at hq
      · cases hq
      · exact hq
  | removes hn =>
    rw [Disk.entry?_unset d (Disk.ne_nil_of_file hn)] at hq
    split at hq
    · cases hq
    · exact hq
  | _ => exact hq

/-- A directory stays where it is. -/
theorem entry?_perform_of_directory (call : DiskCall) (h : d.entry? q = some .directory) :
    Disk.entry? (call.perform d).1 q = some .directory := by
  have hfile {p : Place} {n : Nat} (hp : d.entry? p = some (.file n)) : q ≠ p := by
    rintro rfl
    cases h.symm.trans hp
  have hnone {p : Place} (hp : d.entry? p = none) : q ≠ p := by
    rintro rfl
    cases h.symm.trans hp
  -- A file is given a name at which no directory is.
  have hmove {p p' : Place} {n : Nat} (hp : d.entry? p = some (.file n)) (hp' : p' ≠ [])
      (hne : q ≠ p') : Disk.entry? (d.move p p') q = some .directory := by
    rw [Disk.entry?_move d (Disk.ne_nil_of_file hp) hp' hp, if_neg hne, if_neg (hfile hp), h]
  cases call with
  | makeDirs path => exact (Disk.extends_makeDirs d path).kept h
  | create path =>
    simp only [perform, Disk.create]
    split
    · exact h
    · exact h
    · split <;> exact h
    · next hresolve =>
      obtain ⟨_, hp⟩ := Disk.resolve_eq_absent hresolve
      split
      · exact h
      · exact (Disk.entry?_addFile d (Disk.ne_nil_of_none hp) q).trans
          ((if_neg (hnone hp)).trans h)
  | write n offset bytes => exact h
  | sync n => exact h
  | rename source target =>
    simp only [perform, Disk.rename]
    split
    · exact h
    · exact h
    · exact h
    · next hsource =>
      obtain ⟨_, hp⟩ := Disk.resolve_eq_file hsource
      split
      · exact h
      · exact h
      · next htarget =>
        obtain ⟨_, hp'⟩ := Disk.resolve_eq_file htarget
        exact hmove hp (Disk.ne_nil_of_file hp') (hfile hp')
      · next htarget =>
        obtain ⟨_, hp'⟩ := Disk.resolve_eq_absent htarget
        exact hmove hp (Disk.ne_nil_of_none hp') (hnone hp')
  | remove path =>
    simp only [perform, Disk.remove]
    split
    · exact h
    · exact h
    · exact h
    · next hresolve =>
      obtain ⟨_, hp⟩ := Disk.resolve_eq_file hresolve
      exact (Disk.entry?_unset d (Disk.ne_nil_of_file hp) q).trans
        ((if_neg (hfile hp)).trans h)

/-- The way to a directory stays open. -/
theorem directory?_perform (call : DiskCall) (h : d.directory? dir = some p) :
    (call.perform d).1.directory? dir = some p :=
  Disk.directory?_of_kept (fun _ => entry?_perform_of_directory call) h

end DiskCall

end SymbolPaths
