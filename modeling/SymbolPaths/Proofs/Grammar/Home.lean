import SymbolPaths.Proofs.Disk.Directory
import SymbolPaths.Proofs.Grammar.Files

/-!
# The directory of the cache

The cache reads what it finds in its directory, and makes the directory when it stores
something. If one gets there already, making it does nothing. If not, nothing is read; and
making it brings nothing to light either, unless the way there leads up again from a
directory that has to be made on the way: then the end of the way may have been there all
the time. Where that is not so for a language, the directory is plain for it (`IsPlain`).

* `GrammarCache.payload?_eq` and `GrammarCache.exists?_eq`: what is found is what is at the
  place of its file, if one gets to the directory;
* `GrammarCache.payload?_of_between`: making the directory, or a part of it, changes nothing
  of what is found in a plain directory;
* `GrammarCache.isPlain_of_no_up`: a directory is plain if the way does not lead up.

The cache keeps the path of its directory and never where that leads. What is at the end of the
path may change while directories are made, and does not change any more once one gets there. So
everything is said of the place `GrammarCache.home?`, if there is one, and the rest is about the
moment at which there comes to be one: a write makes the directory first, and may fail when a part
of it was made.
-/

namespace SymbolPaths

namespace GrammarCache

/-- The place of the directory of the cache, if one gets there. -/
def home? (c : GrammarCache) (d : Disk) : Option Place := d.directory? c.dir

/-- The disk when the directory was made. -/
def made (c : GrammarCache) (d : Disk) : Disk := (d.makeDirs c.dir).1

/-- The payload of a language as it can be read. -/
def payload? (c : GrammarCache) (lang : String) (d : Disk) : Option Bytes :=
  (c.read lang d).toOption

/-- Whether nothing comes to light at the path of a payload when the directory is made. -/
def IsPlain (c : GrammarCache) (lang : String) (d : Disk) : Prop :=
  c.exists? lang (c.made d) = c.exists? lang d

/-- Whether a directory is in the way of a payload. -/
def IsBlocked (c : GrammarCache) (lang : String) (d : Disk) : Prop :=
  ∃ p, c.home? d = some p ∧ d.entry? (p ++ [fileName lang]) = some .directory

variable {c : GrammarCache} {lang : String} {d d' : Disk} {p : Place} {payload : Bytes}

/-! ### What is found -/

/-- The path of a payload leads to its name in the directory, if one gets there. -/
theorem resolve_path (hlang : '/' ∉ lang.toList) (d : Disk) :
    (d.resolve (c.path lang)).toOption =
      (c.home? d).map fun p => d.target (p ++ [fileName lang]) := by
  rw [path_eq]
  exact Disk.resolve_join (isName_fileName hlang)

/-- What can be read is what the file holds at its place in the directory. -/
theorem payload?_eq (hlang : '/' ∉ lang.toList) (d : Disk) :
    c.payload? lang d = (c.home? d).bind fun p => d.file? (p ++ [fileName lang]) := by
  have hresolve := resolve_path (c := c) hlang d
  rw [payload?, read, Disk.read]
  cases hhome : c.home? d with
  | none =>
    rw [hhome] at hresolve
    cases hpath : d.resolve (c.path lang) with
    | error e => rfl
    | ok t => simp [hpath, Except.toOption] at hresolve
  | some p =>
    rw [hhome] at hresolve
    cases hpath : d.resolve (c.path lang) with
    | error e => simp [hpath, Except.toOption] at hresolve
    | ok t =>
      obtain rfl : t = d.target (p ++ [fileName lang]) := by
        simpa [hpath, Except.toOption] using hresolve
      rw [Option.bind_some, Disk.target, Disk.file?]
      cases d.entry? (p ++ [fileName lang]) with
      | none => rfl
      | some e => cases e <;> rfl

/-- What is there is whatever is at that place, file or directory. -/
theorem exists?_eq (hlang : '/' ∉ lang.toList) (d : Disk) :
    c.exists? lang d = (c.home? d).any fun p => ( d.entry? (p ++ [fileName lang])).isSome := by
  have hresolve := resolve_path (c := c) hlang d
  rw [exists?, Disk.exists?]
  cases hhome : c.home? d with
  | none =>
    rw [hhome] at hresolve
    cases hpath : d.resolve (c.path lang) with
    | error e => cases e <;> rfl
    | ok t => simp [hpath, Except.toOption] at hresolve
  | some p =>
    rw [hhome] at hresolve
    cases hpath : d.resolve (c.path lang) with
    | error e => simp [hpath, Except.toOption] at hresolve
    | ok t =>
      obtain rfl : t = d.target (p ++ [fileName lang]) := by
        simpa [hpath, Except.toOption] using hresolve
      rw [Option.any_some, Disk.target]
      cases d.entry? (p ++ [fileName lang]) with
      | none => rfl
      | some e => cases e <;> rfl

/-- What is there is a payload, or is in its way. -/
theorem exists?_iff (hlang : '/' ∉ lang.toList) :
    c.exists? lang d = true ↔ (c.payload? lang d).isSome ∨ c.IsBlocked lang d := by
  rw [exists?_eq hlang, payload?_eq hlang, IsBlocked]
  cases c.home? d with
  | none => simp
  | some p =>
    simp only [Option.any_some, Option.bind_some, Disk.file?, Option.some.injEq, exists_eq_left']
    cases d.entry? (p ++ [fileName lang]) with
    | none => simp
    | some e => cases e <;> simp

/-- In a directory that one gets to, what can be read is what is stored. -/
theorem payload?_eq_stored? (hlang : '/' ∉ lang.toList) (hhome : c.home? d = some p) :
    c.payload? lang d = c.stored? lang d := by
  rw [payload?_eq hlang, hhome, Option.bind_some, stored?, place_path c hlang,
    Disk.place_of_directory? hhome]

/-! ### Making the directory -/

theorem home?_perform (call : DiskCall) (h : c.home? d = some p) :
    c.home? (call.perform d).1 = some p :=
  DiskCall.directory?_perform call h

theorem home?_of_extends (h : d.Extends d') (hhome : c.home? d = some p) : c.home? d' = some p :=
  Disk.directory?_of_kept (fun _ hq => h.kept hq) hhome

/-- Whether one gets to the directory depends on the names only. -/
theorem home?_of_entry?_eq (h : ∀ q, d'.entry? q = d.entry? q) : c.home? d' = c.home? d := by
  cases hhome : c.home? d with
  | some p => exact Disk.directory?_of_kept (fun q hq => (h q).trans hq) hhome
  | none =>
    cases hhome' : c.home? d' with
    | none => rfl
    | some p =>
      have hback : c.home? d = some p :=
        Disk.directory?_of_kept (fun q hq => (h q).symm.trans hq) hhome'
      cases hhome.symm.trans hback

theorem extends_made (c : GrammarCache) (d : Disk) : d.Extends (c.made d) :=
  Disk.extends_makeDirs d c.dir

/-- Where one gets to the directory, making it does nothing. -/
theorem made_of_home? (h : c.home? d = some p) : c.made d = d := by
  rw [made, Disk.makeDirs_of_directory? h]

/-- The directory can be made if one gets there afterwards. -/
theorem makeDirs_eq_ok_iff :
    (d.makeDirs c.dir).2 = .ok () ↔ ∃ p, c.home? (c.made d) = some p := by
  refine ⟨Disk.directory?_makeDirs, fun ⟨p, hhome⟩ => ?_⟩
  rw [← (Disk.makeDirs_of_between (extends_made c d) (.refl _)).1,
    Disk.makeDirs_of_directory? hhome]

/-- When a part of the directory was made, making it comes to the same. -/
theorem entry?_made_of_between (h : d.Extends d') (h' : d'.Extends (c.made d)) (q : Place) :
    Disk.entry? (c.made d') q = Disk.entry? (c.made d) q :=
  (Disk.makeDirs_of_between h h').2 q

theorem exists?_of_entry?_eq (hlang : '/' ∉ lang.toList) (h : ∀ q, d'.entry? q = d.entry? q) :
    c.exists? lang d' = c.exists? lang d := by
  simp only [exists?_eq hlang, home?_of_entry?_eq h, h]

/-- What is there stays there while directories are made. -/
theorem exists?_of_extends (hlang : '/' ∉ lang.toList) (h : d.Extends d')
    (hexists : c.exists? lang d = true) : c.exists? lang d' = true := by
  rw [exists?_eq hlang, Option.any_eq_true] at hexists ⊢
  obtain ⟨p, hhome, hentry⟩ := hexists
  obtain ⟨e, he⟩ := Option.isSome_iff_exists.1 hentry
  exact ⟨p, home?_of_extends h hhome, by rw [h.kept he]; rfl⟩

theorem isPlain_of_home? (h : c.home? d = some p) : c.IsPlain lang d := by
  rw [IsPlain, made_of_home? h]

/-- What is there when a part of the directory was made is what was there before. -/
theorem exists?_of_between (hlang : '/' ∉ lang.toList) (h : d.Extends d')
    (h' : d'.Extends (c.made d)) (hplain : c.IsPlain lang d) :
    c.exists? lang d' = c.exists? lang d := by
  cases hexists : c.exists? lang d with
  | true => exact exists?_of_extends hlang h hexists
  | false =>
    refine Bool.eq_false_iff.2 fun hd' => ?_
    cases hexists.symm.trans (hplain.symm.trans (exists?_of_extends hlang h' hd'))

/-- A directory stays plain while parts of it are made. -/
theorem isPlain_of_between (hlang : '/' ∉ lang.toList) (h : d.Extends d')
    (h' : d'.Extends (c.made d)) (hplain : c.IsPlain lang d) : c.IsPlain lang d' := by
  rw [IsPlain, exists?_of_entry?_eq hlang (entry?_made_of_between h h'),
    exists?_of_between hlang h h' hplain]
  exact hplain

/-- Making a part of a plain directory changes no payload that can be read. -/
theorem payload?_of_between (hlang : '/' ∉ lang.toList) (h : d.Extends d')
    (h' : d'.Extends (c.made d)) (hplain : c.IsPlain lang d) :
    c.payload? lang d' = c.payload? lang d := by
  cases hhome : c.home? d with
  | some p =>
    -- There is nothing to be made.
    rw [made_of_home? hhome] at h'
    have hcontent (n : Nat) : d'.content n = d.content n := by
      rw [Disk.content, Disk.content, h.contents_eq]
    simp only [payload?_eq hlang, home?_of_extends h hhome, hhome, Option.bind_some, Disk.file?,
      h.entry?_eq h', hcontent]
  | none =>
    have hnone : c.exists? lang d' = false := by
      rw [exists?_of_between hlang h h' hplain, exists?_eq hlang, hhome]
      rfl
    have hpayload : c.payload? lang d = none := by
      rw [payload?_eq hlang, hhome]
      rfl
    rw [hpayload, Option.eq_none_iff_forall_ne_some]
    intro payload hd'
    have hthere : c.exists? lang d' = true := (exists?_iff hlang).2 (.inl (by rw [hd']; rfl))
    cases hnone.symm.trans hthere

/-- Making a part of a plain directory puts nothing in the way of a payload. -/
theorem isBlocked_of_between (hlang : '/' ∉ lang.toList) (h : d.Extends d')
    (h' : d'.Extends (c.made d)) (hplain : c.IsPlain lang d) :
    c.IsBlocked lang d' ↔ c.IsBlocked lang d := by
  constructor
  · rintro ⟨p, hhome', hentry'⟩
    -- What is in the way was there before, and no file has become a directory.
    have hexists : c.exists? lang d = true := by
      rw [← exists?_of_between hlang h h' hplain]
      exact (exists?_iff hlang).2 (.inr ⟨p, hhome', hentry'⟩)
    rw [exists?_eq hlang, Option.any_eq_true] at hexists
    obtain ⟨p', hhome, hsome⟩ := hexists
    obtain rfl := Option.some.inj (hhome'.symm.trans (home?_of_extends h hhome))
    obtain ⟨e, he⟩ := Option.isSome_iff_exists.1 hsome
    obtain rfl := Option.some.inj (hentry'.symm.trans (h.kept he))
    exact ⟨p, hhome, he⟩
  · rintro ⟨p, hhome, hentry⟩
    exact ⟨p, home?_of_extends h hhome, h.kept hentry⟩

/-- The directory is plain if the way to it does not lead up. -/
theorem isPlain_of_no_up (hlang : '/' ∉ lang.toList) (htree : d.IsTree)
    (hup : ".." ∉ FilePath.segments c.dir) : c.IsPlain lang d := by
  cases hhome : c.home? d with
  | some p => exact isPlain_of_home? hhome
  | none =>
    rw [IsPlain, exists?_eq hlang, exists?_eq hlang, hhome, Option.any_none]
    refine (Option.any_eq_false ..).2 fun p hmade => ?_
    rw [made, Disk.entry?_makeDirs_of_directory? htree hup hhome hmade]
    rfl

end GrammarCache

end SymbolPaths
