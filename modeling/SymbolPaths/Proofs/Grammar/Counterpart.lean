import SymbolPaths.Proofs.Disk.Mirror
import SymbolPaths.Proofs.Grammar.Home

/-!
# The cache on two disks

Of two disks one may hold the files of many languages and the other those of one only. To that
language they are alike if its own two files are, as seen when the directory of the cache was
made; whether it was made already is not the same on both, if others have stored something. A
payload that is stored on both in the same way keeps them alike, whatever fails, and so does one
of another language that is stored on one of them.

* `GrammarCache.AreAlike`: two disks are alike for a language;
* `GrammarCache.exists?_of_alike`, `GrammarCache.payload?_of_alike`: what is found on both;
* `GrammarCache.stayAlike_perform`: the same operation on both;
* `GrammarCache.stayAlike_of_avoids`: an operation of another language on one of them;
* `CacheWrite.isLike_next`: storing a payload comes equally far on both.

Being alike is a relation between disks that are what they are, not between what was done to them,
so one operation at a time is enough. For each of them there are two cases. If one gets to the
directory on both disks, they are alike when the language's own two places show the same, and the
operation is one of those for which `Disk.Mirrors` is kept. If one does not, nothing can be
opened, renamed or removed in it, and the only operation that does something is the one that makes
it.
-/

namespace SymbolPaths

open FilePath (place)

namespace GrammarCache

/-- Whether a place is that of a file of a language. -/
def IsOwn (c : GrammarCache) (lang : String) (q : Place) : Prop :=
  q = place (c.path lang) ∨ q = place (c.tempPath lang)

/-- Whether two disks are alike for a language: when the directory was made one gets there on
    both or on neither, and both show the same at the places of its files. -/
structure AreAlike (c : GrammarCache) (lang : String) (u v : Disk) : Prop where
  /-- One gets to the directory on both or on neither, and to the same place. -/
  home : c.home? (c.made u) = c.home? (c.made v)
  /-- The files of the language are the same when the directory was made. -/
  mirrors : Disk.Mirrors (c.IsOwn lang) (c.made u) (c.made v)

/-- Whether a file of one disk and one of another are the same one to a language. -/
def AreTied (c : GrammarCache) (lang : String) (u v : Disk) : Nat → Nat → Prop :=
  Disk.Tied (c.IsOwn lang) u v

/-- Whether two disks that come after two others are alike, and files that were tied stay so. -/
structure StayAlike (c : GrammarCache) (lang : String) (u v u' v' : Disk) : Prop where
  /-- The disks are alike afterwards. -/
  alike : c.AreAlike lang u' v'
  /-- Files that belonged to each other still do. -/
  tied : ∀ {n m : Nat}, c.AreTied lang u v n m → c.AreTied lang u' v' n m

variable {c : GrammarCache} {lang : String} {u v u' : Disk} {p : Place} {call call' : DiskCall}
  {result : Except IoError Nat}

theorem isOwn_fileName (hlang : '/' ∉ lang.toList) (hhome : c.home? u = some p) :
    c.IsOwn lang (p ++ [fileName lang]) :=
  .inl (by rw [place_path c hlang, Disk.place_of_directory? hhome])

theorem isOwn_tempName (hlang : '/' ∉ lang.toList) (hhome : c.home? u = some p) :
    c.IsOwn lang (p ++ [tempName lang]) :=
  .inr (by rw [place_tempPath c hlang, Disk.place_of_directory? hhome])

/-- The files of a language are in the directory of the cache. -/
theorem contains_of_isOwn (hlang : '/' ∉ lang.toList) (q : Place) (hq : c.IsOwn lang q) :
    c.Contains q := by
  rcases hq with rfl | rfl
  · exact contains_path hlang
  · exact contains_tempPath hlang

theorem AreAlike.refl (c : GrammarCache) (lang : String) (d : Disk) : c.AreAlike lang d d :=
  ⟨rfl, .refl _ _⟩

theorem AreAlike.symm (h : c.AreAlike lang u v) : c.AreAlike lang v u :=
  ⟨h.home.symm, h.mirrors.symm⟩

theorem StayAlike.symm {v' : Disk} (h : c.StayAlike lang u v u' v') :
    c.StayAlike lang v u v' u' :=
  ⟨h.alike.symm, fun htied => (h.tied htied.symm).symm⟩

theorem StayAlike.trans {v' u'' v'' : Disk} (h : c.StayAlike lang u v u' v')
    (h' : c.StayAlike lang u' v' u'' v'') : c.StayAlike lang u v u'' v'' :=
  ⟨h'.alike, fun htied => h'.tied (h.tied htied)⟩

/-- Where the directory is, the disks are as they are when it was made. -/
theorem alike_iff_mirrors (hu : c.home? u = some p) (hv : c.home? v = some p) :
    c.AreAlike lang u v ↔ Disk.Mirrors (c.IsOwn lang) u v := by
  refine ⟨fun h => ?_, fun h => ⟨?_, ?_⟩⟩
  · have hmirrors := h.mirrors
    rwa [made_of_home? hu, made_of_home? hv] at hmirrors
  · rw [made_of_home? hu, made_of_home? hv, hu, hv]
  · rwa [made_of_home? hu, made_of_home? hv]

/-! ### What is found -/

/-- The same is there on both, if nothing comes to light when the directory is made. -/
theorem exists?_of_alike (hlang : '/' ∉ lang.toList) (h : c.AreAlike lang u v)
    (hu : c.IsPlain lang u) (hv : c.IsPlain lang v) : c.exists? lang u = c.exists? lang v := by
  rw [← hu, ← hv, exists?_eq hlang, exists?_eq hlang, ← h.home]
  cases hhome : c.home? (c.made u) with
  | none => rfl
  | some p =>
    rw [Option.any_some, Option.any_some, ← Disk.isSome_look, ← Disk.isSome_look,
      h.mirrors _ (isOwn_fileName hlang hhome)]

/-- On disks that are alike to a language the same can be read of it. -/
theorem payload?_of_alike (hlang : '/' ∉ lang.toList) (h : c.AreAlike lang u v)
    (hu : c.IsPlain lang u) (hv : c.IsPlain lang v) : c.payload? lang u = c.payload? lang v := by
  have hmade {d : Disk} (hd : c.IsPlain lang d) : c.payload? lang (c.made d) = c.payload? lang d :=
    payload?_of_between hlang (extends_made c d) (.refl _) hd
  rw [← hmade hu, ← hmade hv, payload?_eq hlang, payload?_eq hlang, ← h.home]
  cases hhome : c.home? (c.made u) with
  | none => rfl
  | some p =>
    rw [Option.bind_some, Option.bind_some, Disk.file?_eq_look, Disk.file?_eq_look,
      h.mirrors _ (isOwn_fileName hlang hhome)]

/-! ### Operations on one disk -/

/-- The directory may be made on one disk. -/
theorem stayAlike_made (h : c.AreAlike lang u v) : c.StayAlike lang u v (c.made u) v := by
  have hextends := extends_made c u
  have hentry : ∀ q, Disk.entry? (c.made (c.made u)) q = Disk.entry? (c.made u) q :=
    entry?_made_of_between hextends (.refl _)
  have hcontent (n : Nat) : (c.made (c.made u)).content n = (c.made u).content n := by
    rw [Disk.content, Disk.content, (extends_made c (c.made u)).contents_eq]
  refine ⟨⟨(home?_of_entry?_eq hentry).trans h.home, ?_⟩, fun htied => ?_⟩
  · exact fun q hq => (Disk.look_congr (hentry q) fun n _ => hcontent n).trans (h.mirrors q hq)
  · exact htied.of_sameAt (fun q _ => hextends.sameAt q)
      (Nat.le_of_eq (congrArg _ hextends.contents_eq.symm))

/-- Something may happen elsewhere in the directory of one disk. -/
theorem stayAlike_of_avoids (hlang : '/' ∉ lang.toList) (hunshared : u.IsUnshared c.Contains)
    (hwithin : call.IsWithin c.Contains) (hhome : c.home? u = some p) (h : c.AreAlike lang u v)
    (havoids : ∀ q, c.IsOwn lang q → call.Avoids u q) (hmakes : ∀ path, call ≠ .makeDirs path) :
    c.StayAlike lang u v (call.perform u).1 v := by
  have heffect := DiskCall.effect_perform call u
  have hhome' : c.home? (call.perform u).1 = some p := home?_perform call hhome
  have hsub := contains_of_isOwn (c := c) hlang
  refine ⟨⟨?_, ?_⟩, fun htied => heffect.tied hunshared hwithin hsub havoids htied⟩
  · rw [made_of_home? hhome', hhome', ← h.home, made_of_home? hhome, hhome]
  · have hmirrors := h.mirrors
    rw [made_of_home? hhome] at hmirrors
    rw [made_of_home? hhome']
    exact (heffect.mirrors hunshared hwithin hsub havoids hmakes).trans hmirrors

/-! ### The same operation on both -/

/-- The operations with which a payload of a language is stored on two disks. -/
inductive Matches (c : GrammarCache) (lang : String) (T : Nat → Nat → Prop) :
    DiskCall → DiskCall → Prop
  /-- The directory is made on both. -/
  | makes : Matches c lang T (.makeDirs c.dir) (.makeDirs c.dir)
  /-- The temporary file is opened on both. -/
  | creates : Matches c lang T (.create (c.tempPath lang)) (.create (c.tempPath lang))
  /-- The same is written to files that belong to each other. -/
  | writes {n m : Nat} (offset : Nat) (bytes : Bytes) : T n m →
      Matches c lang T (.write n offset bytes) (.write m offset bytes)
  /-- Some file is flushed on either. -/
  | syncs (n m : Nat) : Matches c lang T (.sync n) (.sync m)
  /-- The temporary file gets its name on both. -/
  | renames : Matches c lang T (.rename (c.tempPath lang) (c.path lang))
      (.rename (c.tempPath lang) (c.path lang))
  /-- The temporary file is removed from both. -/
  | removes : Matches c lang T (.remove (c.tempPath lang)) (.remove (c.tempPath lang))

/-- What opening the temporary file comes to is decided by what is at its place. -/
theorem create_tempPath (hlang : '/' ∉ lang.toList) (hhome : c.home? u = some p) :
    u.create (c.tempPath lang) = match u.entry? (p ++ [tempName lang]) with
      | some .directory => (u, .error .isADirectory)
      | some (.file n) => (u.fill n [], .ok n)
      | none => (u.addFile (p ++ [tempName lang]), .ok u.contents.length) := by
  rw [tempPath_eq]
  exact Disk.create_join (isName_tempName hlang) hhome

/-- What renaming it comes to is decided by what is at both places. -/
theorem rename_tempPath (hlang : '/' ∉ lang.toList) (hhome : c.home? u = some p) :
    u.rename (c.tempPath lang) (c.path lang) =
      match u.entry? (p ++ [tempName lang]), u.entry? (p ++ [fileName lang]) with
      | none, _ => (u, .error .notFound)
      | some .directory, _ => (u, .error .isADirectory)
      | some (.file _), some .directory => (u, .error .isADirectory)
      | some (.file _), _ => (u.move (p ++ [tempName lang]) (p ++ [fileName lang]), .ok ()) := by
  rw [tempPath_eq, path_eq]
  exact Disk.rename_join (isName_tempName hlang) (isName_fileName hlang) hhome

/-- What removing it comes to is decided by what is at its place. -/
theorem remove_tempPath (hlang : '/' ∉ lang.toList) (hhome : c.home? u = some p) :
    u.remove (c.tempPath lang) = match u.entry? (p ++ [tempName lang]) with
      | none => (u, .error .notFound)
      | some .directory => (u, .error .isADirectory)
      | some (.file _) => (u.unset (p ++ [tempName lang]), .ok ()) := by
  rw [tempPath_eq]
  exact Disk.remove_join (isName_tempName hlang) hhome

/-- Opening the temporary file on both. -/
theorem create_of_mirrors (hlang : '/' ∉ lang.toList) (hunshared : u.IsUnshared c.Contains)
    (hunshared' : v.IsUnshared c.Contains) (hu : c.home? u = some p) (hv : c.home? v = some p)
    (h : Disk.Mirrors (c.IsOwn lang) u v) :
    let u' := u.create (c.tempPath lang)
    let v' := v.create (c.tempPath lang)
    Disk.StayMirrors (c.IsOwn lang) u v u'.1 v'.1 ∧
      ((∃ n m, u'.2 = .ok n ∧ v'.2 = .ok m ∧ c.AreTied lang u'.1 v'.1 n m) ∨
        ∃ e, u'.2 = .error e ∧ v'.2 = .error e) := by
  intro u' v'
  have hu' : u' = _ := create_tempPath hlang hu
  have hv' : v' = _ := create_tempPath hlang hv
  have hne : p ++ [tempName lang] ≠ [] := by simp
  have hown := isOwn_tempName hlang hu
  rcases Disk.look_eq_iff.1 (h _ hown) with
    ⟨hentry, hentry'⟩ | ⟨hentry, hentry'⟩ | @⟨n, m, hentry, hentry', _⟩
  · rw [hu', hv', hentry, hentry']
    exact ⟨Disk.stayMirrors_addFile h hne, .inl ⟨_, _, rfl, rfl, Disk.tied_addFile hne⟩⟩
  · rw [hu', hv', hentry, hentry']
    exact ⟨h.stay, .inr ⟨_, rfl, rfl⟩⟩
  · rw [hu', hv', hentry, hentry']
    have htied : Disk.Tied (c.IsOwn lang) u v n m :=
      Disk.tied_of_entry? (hunshared.mono (contains_of_isOwn hlang))
        (hunshared'.mono (contains_of_isOwn hlang)) hown hentry hentry'
    have hstay : Disk.StayMirrors (c.IsOwn lang) u v (u.fill n []) (v.fill m []) :=
      Disk.stayMirrors_refill h htied fun _ _ _ => rfl
    exact ⟨hstay, .inl ⟨n, m, rfl, rfl, hstay.tied htied⟩⟩

/-- Renaming the temporary file on both. -/
theorem rename_of_mirrors (hlang : '/' ∉ lang.toList) (hu : c.home? u = some p)
    (hv : c.home? v = some p) (h : Disk.Mirrors (c.IsOwn lang) u v) :
    let u' := u.rename (c.tempPath lang) (c.path lang)
    let v' := v.rename (c.tempPath lang) (c.path lang)
    Disk.StayMirrors (c.IsOwn lang) u v u'.1 v'.1 ∧ u'.2 = v'.2 := by
  intro u' v'
  have hu' : u' = _ := rename_tempPath hlang hu
  have hv' : v' = _ := rename_tempPath hlang hv
  have hne : p ++ [fileName lang] ≠ [] := by simp
  have hown := isOwn_tempName hlang hu
  rcases Disk.look_eq_iff.1 (h _ hown) with
    ⟨hentry, hentry'⟩ | ⟨hentry, hentry'⟩ | ⟨hentry, hentry', _⟩
  · rw [hu', hv', hentry, hentry']
    exact ⟨h.stay, rfl⟩
  · rw [hu', hv', hentry, hentry']
    exact ⟨h.stay, rfl⟩
  · -- All but a directory is replaced.
    have hmove := Disk.stayMirrors_move h hown hentry hentry' hne
    rcases Disk.look_eq_iff.1 (h _ (isOwn_fileName hlang hu)) with
      ⟨htarget, htarget'⟩ | ⟨htarget, htarget'⟩ | ⟨htarget, htarget', _⟩
    · rw [hu', hv', hentry, hentry', htarget, htarget']
      exact ⟨hmove, rfl⟩
    · rw [hu', hv', hentry, hentry', htarget, htarget']
      exact ⟨h.stay, rfl⟩
    · rw [hu', hv', hentry, hentry', htarget, htarget']
      exact ⟨hmove, rfl⟩

/-- Removing the temporary file on both. -/
theorem remove_of_mirrors (hlang : '/' ∉ lang.toList) (hu : c.home? u = some p)
    (hv : c.home? v = some p) (h : Disk.Mirrors (c.IsOwn lang) u v) :
    Disk.StayMirrors (c.IsOwn lang) u v (u.remove (c.tempPath lang)).1
      (v.remove (c.tempPath lang)).1 := by
  rw [remove_tempPath hlang hu, remove_tempPath hlang hv]
  rcases Disk.look_eq_iff.1 (h _ (isOwn_tempName hlang hu)) with
    ⟨hentry, hentry'⟩ | ⟨hentry, hentry'⟩ | ⟨hentry, hentry', _⟩
  · rw [hentry, hentry']
    exact h.stay
  · rw [hentry, hentry']
    exact h.stay
  · rw [hentry, hentry']
    exact Disk.stayMirrors_unset h (by simp)

/-- Writing into tied files. -/
theorem write_of_mirrors {n m : Nat} (h : Disk.Mirrors (c.IsOwn lang) u v)
    (htied : c.AreTied lang u v n m) (offset : Nat) (bytes : Bytes) :
    Disk.StayMirrors (c.IsOwn lang) u v (u.write n offset bytes) (v.write m offset bytes) := by
  refine Disk.stayMirrors_refill h htied fun q hq hentry => ?_
  -- What was there before is the same.
  rcases Disk.look_eq_iff.1 (h q hq) with
    ⟨hnone, _⟩ | ⟨hdirectory, _⟩ | ⟨hentry', hfile, hcontent⟩
  · cases hnone.symm.trans hentry
  · cases hdirectory.symm.trans hentry
  · cases hentry'.symm.trans hentry
    cases hfile.symm.trans ((htied.places q hq).1 hentry)
    rw [hcontent]

/-- Making the directory on both. -/
theorem stayAlike_makeDirs (h : c.AreAlike lang u v) :
    c.StayAlike lang u v (c.made u) (c.made v) := by
  have hleft := stayAlike_made h
  exact hleft.trans (stayAlike_made hleft.alike.symm).symm

/-- The same operation on two disks that are alike, if the directory is there when it has to be. -/
theorem stayAlike_perform (hlang : '/' ∉ lang.toList) (hunshared : u.IsUnshared c.Contains)
    (hunshared' : v.IsUnshared c.Contains)
    (hhome : call = .makeDirs c.dir ∨ ∃ p, c.home? u = some p ∧ c.home? v = some p)
    (h : c.AreAlike lang u v) (hmatches : c.Matches lang (c.AreTied lang u v) call call') :
    c.StayAlike lang u v (call.perform u).1 (call'.perform v).1 := by
  rcases hhome with rfl | ⟨p, hu, hv⟩
  · cases hmatches
    exact stayAlike_makeDirs h
  · have hmirrors := (alike_iff_mirrors hu hv).1 h
    have hsettled (hstay : Disk.StayMirrors (c.IsOwn lang) u v (call.perform u).1
        (call'.perform v).1) : c.StayAlike lang u v (call.perform u).1 (call'.perform v).1 :=
      ⟨(alike_iff_mirrors (home?_perform call hu) (home?_perform call' hv)).2 hstay.mirrors,
        hstay.tied⟩
    cases hmatches with
    | makes => exact stayAlike_makeDirs h
    | creates => exact hsettled (create_of_mirrors hlang hunshared hunshared' hu hv hmirrors).1
    | writes offset bytes htied => exact hsettled (write_of_mirrors hmirrors htied offset bytes)
    | syncs => exact hsettled hmirrors.stay
    | renames => exact hsettled (rename_of_mirrors hlang hu hv hmirrors).1
    | removes => exact hsettled (remove_of_mirrors hlang hu hv hmirrors)

end GrammarCache

namespace CacheWrite

/-- Whether the storing of a payload has come equally far on two disks. -/
inductive IsLike (T : Nat → Nat → Prop) : CacheWrite → CacheWrite → Prop
  /-- Neither has begun. -/
  | preparing : IsLike T .preparing .preparing
  /-- Both are about to open the file. -/
  | opening : IsLike T .opening .opening
  /-- Both have it open, and it is the same file to the language. -/
  | filling {n m : Nat} : T n m → IsLike T (.filling n) (.filling m)
  /-- Both have written everything; the files do not matter any more. -/
  | syncing {n m : Nat} : IsLike T (.syncing n) (.syncing m)
  /-- Both are about to rename it. -/
  | naming : IsLike T .naming .naming
  /-- Both have failed and are about to remove it, whatever the reasons are. -/
  | discarding {e e' : IoError} : IsLike T (.discarding e) (.discarding e')
  /-- Both have stored the payload. -/
  | succeeded : IsLike T (.done (.ok ())) (.done (.ok ()))
  /-- Neither has stored it, whatever the reasons are. -/
  | failed {e e' : IoError} : IsLike T (.done (.error e)) (.done (.error e'))

/-- Whether the directory is there when it has to be. -/
def IsPrepared (c : GrammarCache) (d : Disk) (write : CacheWrite) : Prop :=
  write = .preparing ∨ (∃ r, write = .done r) ∨ ∃ p, c.home? d = some p

variable {c : GrammarCache} {lang : String} {payload : Bytes} {u v : Disk} {T T' : Nat → Nat → Prop}
  {write write' : CacheWrite} {call call' : DiskCall}

/-- What is stored stays alike when more files may belong to each other. -/
theorem IsLike.mono (h : write.IsLike T write') (hT : ∀ {n m : Nat}, T n m → T' n m) :
    write.IsLike T' write' := by
  cases h with
  | preparing => exact .preparing
  | opening => exact .opening
  | filling htied => exact .filling (hT htied)
  | syncing => exact .syncing
  | naming => exact .naming
  | discarding => exact .discarding
  | succeeded => exact .succeeded
  | failed => exact .failed

/-- The operations that come next on both. -/
theorem exists_call?_of_isLike (h : write.IsLike T write')
    (hcall : write.call? c lang payload = some call) :
    ∃ call', write'.call? c lang payload = some call' ∧ c.Matches lang T call call' := by
  cases h with
  | preparing =>
    cases hcall
    exact ⟨_, rfl, .makes⟩
  | opening =>
    cases hcall
    exact ⟨_, rfl, .creates⟩
  | filling htied =>
    cases hcall
    exact ⟨_, rfl, .writes 0 payload htied⟩
  | syncing =>
    cases hcall
    exact ⟨_, rfl, .syncs _ _⟩
  | naming =>
    cases hcall
    exact ⟨_, rfl, .renames⟩
  | discarding =>
    cases hcall
    exact ⟨_, rfl, .removes⟩
  | succeeded => cases hcall
  | failed => cases hcall

/-- Where the one storing is over, so is the other. -/
theorem call?_eq_none_of_isLike (h : write.IsLike T write')
    (hcall : write.call? c lang payload = none) : write'.call? c lang payload = none := by
  cases h <;> first | rfl | cases hcall

/-- One gets to the directory on both. -/
theorem home_of_isPrepared (hcall : write.call? c lang payload = some call)
    (h : c.AreAlike lang u v) (hu : write.IsPrepared c u) (hlike : write.IsLike T write')
    (hv : write'.IsPrepared c v) :
    call = .makeDirs c.dir ∨ ∃ p, c.home? u = some p ∧ c.home? v = some p := by
  by_cases hwrite : write = .preparing
  · subst hwrite
    cases hcall
    exact .inl rfl
  · have hwrite' : write' ≠ .preparing := by
      rintro rfl
      cases hlike
      exact hwrite rfl
    rcases hu with hu | ⟨r, rfl⟩ | ⟨p, hu⟩
    · exact absurd hu hwrite
    · cases hcall
    · rcases hv with hv | ⟨r, rfl⟩ | ⟨p', hv⟩
      · exact absurd hv hwrite'
      · cases hlike <;> cases hcall
      · have hhome := h.home
        rw [GrammarCache.made_of_home? hu, GrammarCache.made_of_home? hv, hu, hv] at hhome
        exact .inr ⟨p, hu, by rw [hv, hhome]⟩

/-- Both fail in the same way, whatever the reason was. -/
theorem isLike_next_error (h : write.IsLike T write') (e : IoError) :
    (write.next (.error e)).IsLike T (write'.next (.error e)) := by
  cases h with
  | preparing => exact .failed
  | opening => exact .discarding
  | filling => exact .discarding
  | syncing => exact .discarding
  | naming => exact .discarding
  | discarding => exact .failed
  | succeeded => exact .succeeded
  | failed => exact .failed

/-- Storing a payload comes equally far on both. -/
theorem isLike_next (hlang : '/' ∉ lang.toList) (hunshared : u.IsUnshared c.Contains)
    (hunshared' : v.IsUnshared c.Contains) (h : c.AreAlike lang u v)
    (hlike : write.IsLike (c.AreTied lang u v) write')
    (hu : write.IsPrepared c u) (hv : write'.IsPrepared c v)
    (hcall : write.call? c lang payload = some call)
    (hcall' : write'.call? c lang payload = some call') :
    (write.next (call.perform u).2).IsLike
      (c.AreTied lang (call.perform u).1 (call'.perform v).1)
      (write'.next (call'.perform v).2) := by
  have hhome := home_of_isPrepared hcall h hu hlike hv
  -- Both writes are at the same stage, so both make the same call; it succeeds on both disks or on
  -- neither.
  cases hlike with
  | preparing =>
    cases hcall
    cases hcall'
    have hok : (u.makeDirs c.dir).2 = .ok () ↔ (v.makeDirs c.dir).2 = .ok () := by
      rw [GrammarCache.makeDirs_eq_ok_iff, GrammarCache.makeDirs_eq_ok_iff, h.home]
    simp only [DiskCall.perform]
    cases hmake : (u.makeDirs c.dir).2 with
    | ok =>
      rw [hok.1 hmake]
      exact .opening
    | error e =>
      cases hmake' : (v.makeDirs c.dir).2 with
      | ok => cases hmake.symm.trans (hok.2 hmake')
      | error e' => exact .failed
  | opening =>
    cases hcall
    cases hcall'
    obtain ⟨p, hu, hv⟩ := hhome.resolve_left fun h => by cases h
    have hmirrors := (GrammarCache.alike_iff_mirrors hu hv).1 h
    rcases (GrammarCache.create_of_mirrors hlang hunshared hunshared' hu hv hmirrors).2 with
      ⟨n, m, hn, hm, htied⟩ | ⟨e, he, he'⟩
    · simp only [DiskCall.perform, hn, hm]
      exact .filling htied
    · simp only [DiskCall.perform, he, he']
      exact .discarding
  | filling =>
    cases hcall
    cases hcall'
    exact .syncing
  | syncing =>
    cases hcall
    cases hcall'
    exact .naming
  | naming =>
    cases hcall
    cases hcall'
    obtain ⟨p, hu, hv⟩ := hhome.resolve_left fun h => by cases h
    have hmirrors := (GrammarCache.alike_iff_mirrors hu hv).1 h
    have hresult := (GrammarCache.rename_of_mirrors hlang hu hv hmirrors).2
    simp only [DiskCall.perform, ← hresult]
    cases (u.rename (c.tempPath lang) (c.path lang)).2 with
    | ok => exact .succeeded
    | error e => exact .discarding
  | discarding => exact .failed
  | succeeded => cases hcall
  | failed => cases hcall

end CacheWrite

end SymbolPaths
