import SymbolPaths.Proofs.Disk.Directory

/-!
# Disks side by side

Two disks may differ and yet show the same at some places: there is nothing, or a directory, or
a file with the same content, which need not have the same number on both. Where the same is
done to both at such places, or something elsewhere to one of them, they go on to show the same.

* `Disk.Mirrors`: two disks show the same at all places of a kind;
* `Disk.Tied`: a file of the one disk and one of the other are at the same places of that kind,
  if anywhere;
* `Disk.StayMirrors`: both are so after something was done to both, as `stayMirrors_refill` and
  others say of what is done;
* `DiskCall.Effect.mirrors` and `DiskCall.Effect.tied`: what is done elsewhere.

The numbers of files differ on the two disks, since each disk counts the files that were made on
it. So what is compared is what is to be seen at a place (`Disk.look`), and an open file on one
disk stands for one on the other if both are found at the same places (`Disk.Tied`). A tied file
need not have a place at all: it may have lost its name while it was open, and whatever is written
to it then is not to be seen on either disk.
-/

namespace SymbolPaths

namespace Disk

/-- What is seen at a place: nothing, a directory, or a file with what it holds. -/
def look (d : Disk) (q : Place) : Option (Option Bytes) :=
  match d.entry? q with
  | none => none
  | some .directory => some none
  | some (.file n) => some (some (d.content n))

/-- Whether two disks show the same at places of a kind. -/
def Mirrors (Q : Place → Prop) (u v : Disk) : Prop := ∀ q, Q q → u.look q = v.look q

/-- Whether a file of one disk and one of another are at the same places of a kind. -/
structure Tied (Q : Place → Prop) (u v : Disk) (n m : Nat) : Prop where
  /-- The file was created on the first disk. -/
  lt_left : n < u.contents.length
  /-- The file was created on the second disk. -/
  lt_right : m < v.contents.length
  /-- Where the one is found, the other one is. -/
  places : ∀ q, Q q → (u.entry? q = some (.file n) ↔ v.entry? q = some (.file m))

/-- What two disks that show the same at a place may have there. -/
inductive Shown (u v : Disk) (q : Place) : Prop
  /-- There is nothing on either disk. -/
  | nothing : u.entry? q = none → v.entry? q = none → Shown u v q
  /-- There is a directory on both. -/
  | directory : u.entry? q = some .directory → v.entry? q = some .directory → Shown u v q
  /-- There is a file on both, and both hold the same. -/
  | file {n m : Nat} : u.entry? q = some (.file n) → v.entry? q = some (.file m) →
      u.content n = v.content m → Shown u v q

variable {Q : Place → Prop} {u v w u' : Disk} {p q : Place} {n m i j : Nat} {bytes bytes' : Bytes}

/-- Two disks show the same at a place exactly if both have nothing there, or a directory, or files
    that hold the same. -/
theorem look_eq_iff : u.look q = v.look q ↔ Shown u v q := by
  constructor
  · intro h
    rw [look, look] at h
    cases hu : u.entry? q with
    | none =>
      cases hv : v.entry? q with
      | none => exact .nothing hu hv
      | some e => cases e <;> simp [hu, hv] at h
    | some e =>
      cases hv : v.entry? q with
      | none => cases e <;> simp [hu, hv] at h
      | some e' =>
        cases e with
        | directory =>
          cases e' with
          | directory => exact .directory hu hv
          | file m => simp [hu, hv] at h
        | file n =>
          cases e' with
          | directory => simp [hu, hv] at h
          | file m => exact .file hu hv (by simpa [hu, hv] using h)
  · rintro (⟨hu, hv⟩ | ⟨hu, hv⟩ | ⟨hu, hv, hcontent⟩)
    · simp only [look, hu, hv]
    · simp only [look, hu, hv]
    · simp only [look, hu, hv, hcontent]

/-- What a file holds is to be seen where it is. -/
theorem file?_eq_look (d : Disk) (q : Place) : d.file? q = (d.look q).join := by
  rw [file?, look]
  cases d.entry? q with
  | none => rfl
  | some e => cases e <;> rfl

/-- Something is to be seen wherever there is something. -/
theorem isSome_look (d : Disk) (q : Place) : (d.look q).isSome = ( d.entry? q).isSome := by
  rw [look]
  cases d.entry? q with
  | none => rfl
  | some e => cases e <;> rfl

/-- What is seen at a place depends on the name and on the content of the file. -/
theorem look_congr (hentry : u'.entry? q = u.entry? q)
    (hcontent : ∀ n, u.entry? q = some (.file n) → u'.content n = u.content n) :
    u'.look q = u.look q := by
  rw [look, look, hentry]
  split
  · rfl
  · rfl
  · next n hn => rw [hcontent n hn]

theorem Mirrors.refl (Q : Place → Prop) (d : Disk) : Mirrors Q d d := fun _ _ => rfl

theorem Mirrors.symm (h : Mirrors Q u v) : Mirrors Q v u := fun q hq => (h q hq).symm

theorem Mirrors.trans (h : Mirrors Q u v) (h' : Mirrors Q v w) : Mirrors Q u w :=
  fun q hq => (h q hq).trans (h' q hq)

theorem Tied.symm (h : Tied Q u v n m) : Tied Q v u m n :=
  ⟨h.lt_right, h.lt_left, fun q hq => (h.places q hq).symm⟩

/-- Files still belong to each other when nothing happens to one disk at the places of the kind. -/
theorem Tied.of_sameAt (h : Tied Q u v n m) (hsame : ∀ q, Q q → SameAt q u u')
    (hle : u.contents.length ≤ u'.contents.length) : Tied Q u' v n m :=
  ⟨Nat.lt_of_lt_of_le h.lt_left hle, h.lt_right,
    fun q hq => ((hsame q hq).entry?_iff n).trans (h.places q hq)⟩

/-- The files that two disks have at one place are tied, if they have no other names at places
    of the kind. -/
theorem tied_of_entry? (hu : u.IsUnshared Q) (hv : v.IsUnshared Q) (hQ : Q q)
    (hq : u.entry? q = some (.file n)) (hq' : v.entry? q = some (.file m)) : Tied Q u v n m where
  lt_left := lt_length_of_entry hq
  lt_right := lt_length_of_entry hq'
  places p hp := by
    constructor
    · intro hn
      rwa [hu hp hQ hn hq]
    · intro hm
      rwa [hv hp hQ hm hq']

/-- Whether two disks that come after two others show the same at places of a kind, and files
    that were tied stay so. -/
structure StayMirrors (Q : Place → Prop) (u v u' v' : Disk) : Prop where
  /-- The same is to be seen on both. -/
  mirrors : Mirrors Q u' v'
  /-- Files that belonged to each other still do. -/
  tied : ∀ {i j : Nat}, Tied Q u v i j → Tied Q u' v' i j

theorem Mirrors.stay (h : Mirrors Q u v) : StayMirrors Q u v u v := ⟨h, id⟩

/-! ### The same done to both -/

/-- Tied files may be given the same content. What they are given does not matter if they have no
    name. -/
theorem stayMirrors_refill (h : Mirrors Q u v) (htied : Tied Q u v n m)
    (hbytes : ∀ q, Q q → u.entry? q = some (.file n) → bytes = bytes') :
    StayMirrors Q u v (u.fill n bytes) (v.fill m bytes') := by
  have hself {d : Disk} {n : Nat} (hn : n < d.contents.length) (bytes : Bytes) :
      (d.fill n bytes).content n = bytes := by
    simp [content, fill, List.getD_eq_getElem?_getD, hn]
  constructor
  case mirrors =>
    intro q hq
    rw [look_eq_iff]
    rcases look_eq_iff.1 (h q hq) with ⟨hu, hv⟩ | ⟨hu, hv⟩ | @⟨i, j, hu, hv, hcontent⟩
    · exact .nothing hu hv
    · exact .directory hu hv
    · refine .file hu hv ?_
      -- Tied files stand at the same places, so both files at `q` are the one written or neither
      -- is.
      by_cases hi : i = n
      · subst hi
        obtain rfl : j = m := by simpa [hv] using (htied.places q hq).1 hu
        rw [hself htied.lt_left, hself htied.lt_right, hbytes q hq hu]
      · have hj : j ≠ m := by
          rintro rfl
          exact hi (by simpa [hu] using (htied.places q hq).2 hv)
        rw [content_fill_of_ne u hi, content_fill_of_ne v hj, hcontent]
  case tied =>
    exact fun hold => ⟨Nat.lt_of_lt_of_eq hold.lt_left (length_fill ..).symm,
      Nat.lt_of_lt_of_eq hold.lt_right (length_fill ..).symm, hold.places⟩

/-- A new file is to be seen at its place, and is empty. -/
theorem look_addFile (d : Disk) (hp : p ≠ []) (q : Place) :
    (d.addFile p).look q = if q = p then some (some []) else d.look q := by
  rw [look, look, entry?_addFile d hp]
  by_cases hq : q = p
  · simp only [hq, if_true, content_addFile]
    simp [content]
  · simp only [hq, if_false, content_addFile]

/-- A file may be created at the same place of both. -/
theorem stayMirrors_addFile (h : Mirrors Q u v) (hp : p ≠ []) :
    StayMirrors Q u v (u.addFile p) (v.addFile p) := by
  constructor
  case mirrors =>
    intro q hq
    rw [look_addFile u hp, look_addFile v hp, h q hq]
  case tied =>
    intro i j hold
    have hi : u.contents.length ≠ i := Nat.ne_of_gt hold.lt_left
    have hj : v.contents.length ≠ j := Nat.ne_of_gt hold.lt_right
    refine ⟨Nat.lt_of_lt_of_le hold.lt_left (by simp [length_addFile]),
      Nat.lt_of_lt_of_le hold.lt_right (by simp [length_addFile]), fun q hq => ?_⟩
    rw [entry?_addFile u hp, entry?_addFile v hp]
    split
    · simp [hi, hj]
    · exact hold.places q hq

/-- The new files are tied: neither has any other name. -/
theorem tied_addFile (hp : p ≠ []) :
    Tied Q (u.addFile p) (v.addFile p) u.contents.length v.contents.length where
  lt_left := by simp [length_addFile]
  lt_right := by simp [length_addFile]
  places q _ := by
    rw [entry?_addFile u hp, entry?_addFile v hp]
    split
    · simp
    · exact iff_of_false (fun h => Nat.lt_irrefl _ (lt_length_of_entry h))
        fun h => Nat.lt_irrefl _ (lt_length_of_entry h)

/-- Where a name was removed, nothing is to be seen. -/
theorem look_unset (d : Disk) (hp : p ≠ []) (q : Place) :
    (d.unset p).look q = if q = p then none else d.look q := by
  rw [look, look, Disk.entry?_unset d hp]
  by_cases hq : q = p
  · simp [hq]
  · simp only [hq, if_false]
    rfl

/-- What was to be seen at the old place of a file is to be seen at its new one. -/
theorem look_move (d : Disk) (hq : q ≠ []) (h : d.entry? p = some (.file n)) (x : Place) :
    (d.move p q).look x = if x = q then d.look p else if x = p then none else d.look x := by
  rw [look, entry?_move d (ne_nil_of_file h) hq h]
  by_cases hx : x = q
  · rw [if_pos hx, if_pos hx]
    simp only [look, h, content_move]
  · rw [if_neg hx, if_neg hx]
    by_cases hxp : x = p
    · rw [if_pos hxp, if_pos hxp]
    · rw [if_neg hxp, if_neg hxp]
      simp only [look, content_move]

/-- What is at one place of both may go. -/
theorem stayMirrors_unset (h : Mirrors Q u v) (hp : p ≠ []) :
    StayMirrors Q u v (u.unset p) (v.unset p) := by
  constructor
  case mirrors =>
    intro q hq
    rw [look_unset u hp, look_unset v hp, h q hq]
  case tied =>
    refine fun hold => ⟨hold.lt_left, hold.lt_right, fun q hq => ?_⟩
    rw [Disk.entry?_unset u hp, Disk.entry?_unset v hp]
    split
    · simp
    · exact hold.places q hq

/-- What is at one place on both may be moved to another. -/
theorem stayMirrors_move (h : Mirrors Q u v) (hq : Q q) (hu : u.entry? q = some (.file n))
    (hv : v.entry? q = some (.file m)) (hp : p ≠ []) :
    StayMirrors Q u v (u.move q p) (v.move q p) := by
  constructor
  case mirrors =>
    intro x hx
    rw [look_move u hp hu, look_move v hp hv, h q hq, h x hx]
  case tied =>
    intro i j hold
    refine ⟨Nat.lt_of_lt_of_eq hold.lt_left (congrArg _ (contents_move ..).symm),
      Nat.lt_of_lt_of_eq hold.lt_right (congrArg _ (contents_move ..).symm), fun x hx => ?_⟩
    rw [entry?_move u (ne_nil_of_file hu) hp hu, entry?_move v (ne_nil_of_file hv) hp hv]
    split
    · -- The file at the new name is the one that was at the old name.
      have hplaces := hold.places q hq
      rwa [hu, hv] at hplaces
    · split
      · simp
      · exact hold.places x hx

end Disk

namespace DiskCall

variable {P Q : Place → Prop} {u u' v : Disk} {call : DiskCall} {result : Except IoError Nat}
  {n m : Nat}

/-- An operation that is not about some places, and makes no directories, changes nothing that is
    seen there. -/
theorem Effect.mirrors (h : Effect u call u' result) (hunshared : u.IsUnshared P)
    (hwithin : call.IsWithin P) (hsub : ∀ q, Q q → P q) (havoids : ∀ q, Q q → call.Avoids u q)
    (hmakes : ∀ path, call ≠ .makeDirs path) : Disk.Mirrors Q u' u := fun q hq =>
  Disk.look_congr (h.entry?_eq (havoids q hq) hmakes)
    (h.sameAt hunshared hwithin (hsub q hq) (havoids q hq)).content_eq

/-- It leaves tied files tied. -/
theorem Effect.tied (h : Effect u call u' result) (hunshared : u.IsUnshared P)
    (hwithin : call.IsWithin P) (hsub : ∀ q, Q q → P q) (havoids : ∀ q, Q q → call.Avoids u q)
    (htied : Disk.Tied Q u v n m) : Disk.Tied Q u' v n m :=
  htied.of_sameAt (fun q hq => h.sameAt hunshared hwithin (hsub q hq) (havoids q hq)) h.length_le

end DiskCall

end SymbolPaths
