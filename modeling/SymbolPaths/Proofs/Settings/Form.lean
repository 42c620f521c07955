import SymbolPaths.Proofs.Yaml.Entries
import SymbolPaths.Settings.Key

/-!
# Written settings are read back

Every choice is written as the value of an entry, and the value is read as a node that makes just
this choice: truth values and numbers are words, and a text that would be taken for one of them,
or for nothing, is quoted. A choice that was not made has no entry, and reading settings leaves it
as nobody made it.

* `SettingKey.exists_isWritten`: the value of an entry is read back, and makes the same choice;
* `Settings.exists_readDocument?_render`: settings are a mapping of the choices that they make;
* `Settings.ofText?_render`: settings are read back as they are.

Reading is by key, and a key that is missing leaves the standard value. So writing and reading are
compared key by key: for each key the written value is a node of the form that the key wants, and
setting the key from that node gives the choice that was written (`SettingKey.adopt`). The whole
is a fold over the keys on either side, and settings are equal if all their choices are.
-/

namespace SymbolPaths

namespace Yaml

variable {cs : List Char} {n limit : Nat}

/-! ### Numbers -/

/-- A decimal digit has a value below ten. -/
theorem digitValue?_of_isDigit {c : Char} (h : c.isDigit) :
    Number.digitValue? c = some (c.toNat - '0'.toNat) ∧ c.toNat - '0'.toNat < 10 := by
  rw [Char.isDigit, Bool.and_eq_true, decide_eq_true_eq, decide_eq_true_eq] at h
  have hle : c.toNat ≤ '9'.toNat := h.2
  have hnine : '9'.toNat = '0'.toNat + 9 := rfl
  exact ⟨if_pos h, by omega⟩

/-- Digits are read as the number that they write, by induction on those that are left. -/
theorem foldlM_of_isDigit (h : ∀ c ∈ cs, c.isDigit) (n : Nat) :
    cs.foldlM (fun n c => (Number.digitValue? c).bind
      fun d => if d < 10 then some (10 * n + d) else none) n = some (Nat.ofDigitChars 10 cs n) := by
  induction cs generalizing n with
  | nil => rfl
  | cons c cs ih =>
    obtain ⟨hc, hcs⟩ := List.forall_mem_cons.1 h
    obtain ⟨hvalue, hlt⟩ := digitValue?_of_isDigit hc
    rw [List.foldlM_cons, hvalue, Option.bind_some, if_pos hlt]
    exact ih hcs _

theorem isDigit_of_mem_toDigits {c : Char} (h : c ∈ Nat.toDigits 10 n) : c.isDigit :=
  Nat.isDigit_of_mem_toDigits (by decide) (by decide) h

/-- A number is read back from its digits. -/
theorem ofDigits?_toDigits (n : Nat) : Number.ofDigits? 10 (Nat.toDigits 10 n) = some n := by
  have hempty : (Nat.toDigits 10 n).isEmpty = false :=
    List.isEmpty_eq_false_iff.2 Nat.toDigits_ne_nil
  rw [Number.ofDigits?, hempty, if_neg Bool.false_ne_true,
    foldlM_of_isDigit (fun _ => isDigit_of_mem_toDigits),
    Nat.ofDigitChars_toDigits (by decide) (by decide)]

/-- Only zero is written with a zero at the start. -/
theorem eq_zero_of_head?_toDigits (h : (Nat.toDigits 10 n).head? = some '0') : n = 0 := by
  induction n using Nat.strongRecOn with
  | ind n ih =>
    rw [Nat.toDigits_eq_if (by decide)] at h
    split at h
    · next hlt =>
      have hdigit := congrArg Char.toNat (Option.some.inj h)
      rw [Nat.toNat_digitChar_of_lt_ten hlt] at hdigit
      have hzero : '0'.toNat = 48 := rfl
      omega
    · next hle =>
      rw [List.head?_append, Option.or_of_isSome (by simp [Nat.toDigits_ne_nil])] at h
      have := ih (n / 10) (by omega) h
      omega

/-- A number that is written does not start with a zero, unless it is zero. -/
theorem hasLeadingZero_toDigits (n : Nat) : hasLeadingZero (Nat.toDigits 10 n) = false := by
  cases hdigits : Nat.toDigits 10 n with
  | nil => exact absurd hdigits Nat.toDigits_ne_nil
  | cons c cs =>
    have hsign : ¬(c = '+' ∨ c = '-') := by
      have hc : c.isDigit := isDigit_of_mem_toDigits (hdigits ▸ List.mem_cons_self)
      rintro (rfl | rfl) <;> cases hc
    rw [hasLeadingZero, dropSign, if_neg hsign]
    cases cs with
    | nil => rfl
    | cons d rest =>
      have hzero : (c == '0') = false := by
        rw [beq_eq_false_iff_ne]
        rintro rfl
        obtain rfl := eq_zero_of_head?_toDigits (congrArg List.head? hdigits)
        cases hdigits
      simp only [hzero, Bool.false_and]

/-- Digits alone are read as a decimal number: no prefix tells of another base. -/
theorem magnitude?_of_isDigit (h : ∀ c ∈ cs, c.isDigit) :
    magnitude? cs = Number.ofDigits? 10 cs := by
  match cs with
  | [] => rfl
  | [_] => rfl
  | c :: d :: rest =>
    have hletter {x : Char} (hx : x.isDigit = false) : ¬(c = '0' ∧ d = x) := by
      rintro ⟨-, rfl⟩
      exact absurd (hx.symm.trans (h d (by simp))) Bool.false_ne_true
    rw [magnitude?, if_neg (hletter rfl), if_neg (hletter rfl), if_neg (hletter rfl)]

/-- A number that was written as a word is read back as that number. -/
theorem toNat?_toString (n : Nat) : toNat? (toString n) = some n := by
  have htext : (toString n).toList = Nat.toDigits 10 n := Nat.toList_repr
  have hplus : dropPlus (Nat.toDigits 10 n) = Nat.toDigits 10 n := by
    cases hdigits : Nat.toDigits 10 n with
    | nil => rfl
    | cons c cs =>
      have hc : c.isDigit := isDigit_of_mem_toDigits (hdigits ▸ List.mem_cons_self)
      rw [dropPlus, if_neg]
      rintro rfl
      cases hc
  rw [toNat?, htext, hasLeadingZero_toDigits, if_neg Bool.false_ne_true, hplus,
    magnitude?_of_isDigit fun _ => isDigit_of_mem_toDigits, ofDigits?_toDigits]

/-! ### Values -/

/-- A word of letters and digits is a plain scalar, with nothing else in it. -/
theorem isWritten_writeWord {word : String} (hne : word ≠ "")
    (hword : ∀ c ∈ word.toList, c.isAlphanum) :
    IsWritten (SettingKey.writeWord word) (.scalar .plain none word) := by
  have hwritten := isWritten_word (fun h => hne (String.toList_eq_nil_iff.1 h)) hword
  rwa [String.ofList_toList] at hwritten

/-- What is true or false is read back as such. -/
theorem exists_isWritten_bool (b : Bool) :
    ∃ node, IsWritten (SettingKey.writeWord (if b then "true" else "false")) node ∧
      node.bool? = some b := by
  cases b with
  | false => exact ⟨_, isWritten_writeWord (by decide) (List.all_eq_true.1 rfl), rfl⟩
  | true => exact ⟨_, isWritten_writeWord (by decide) (List.all_eq_true.1 rfl), rfl⟩

/-- A number is read back if it is below the limit of its setting. -/
theorem exists_isWritten_nat (h : n < limit) :
    ∃ node, IsWritten (SettingKey.writeWord (toString n)) node ∧ node.natBelow? limit = some n := by
  have htext : (toString n).toList = Nat.toDigits 10 n := Nat.toList_repr
  refine ⟨_, isWritten_writeWord (fun heq => ?_) fun c hc => ?_, ?_⟩
  · exact Nat.toDigits_ne_nil (htext.symm.trans (congrArg String.toList heq))
  · rw [htext] at hc
    rw [Char.isAlphanum, isDigit_of_mem_toDigits hc, Bool.or_true]
  · have hfilter : (some n).filter (· < limit) = some n := by simp [h]
    rw [Node.natBelow?, toNat?_toString]
    exact hfilter

/-- A text is read back as a text, also where it looks like a number or like nothing. -/
theorem exists_isWritten_text (text : String) :
    ∃ node, IsWritten (' ' :: writeText text.toList) node ∧ node.text? = some text ∧
      node.optionalText? = some (some text) := by
  refine ⟨_, isWritten_text text.toList, ?_, ?_⟩
  · rw [textNode, Node.text?, String.ofList_toList]
  · rw [textNode, String.ofList_toList]
    cases hstyle : TextStyle.of text.toList with
    | plain =>
      -- Only what stands for nothing else is plain.
      obtain ⟨-, hvalue, hne⟩ := allowsPlain_of_style hstyle
      have hempty : text ≠ "" := fun heq => hne (heq ▸ rfl)
      simp only [isValue, Bool.or_eq_false_iff, String.ofList_toList] at hvalue
      simp [TextStyle.form, Node.optionalText?, hempty, hvalue.1.1.1.1.2]
    | single => rfl
    | double => rfl
    | block => rfl

/-- A list of texts is read back with all its texts, whether there are any or not. -/
theorem exists_isWritten_texts (texts : List String) :
    ∃ node, IsWritten (if texts.isEmpty then SettingKey.writeWord "[]"
        else '\n' :: texts.flatMap fun text => '-' :: ' ' :: writeText text.toList) node ∧
      node.texts? = some texts := by
  cases texts with
  | nil => exact ⟨_, isWritten_brackets, rfl⟩
  | cons text texts =>
    have hne : (text :: texts).map String.toList ≠ [] := List.cons_ne_nil _ _
    have hwritten := isWritten_items hne
    rw [writeItems, List.flatMap_map, List.map_map] at hwritten
    refine ⟨_, hwritten, ?_⟩
    have htext : Node.text? ∘ textNode ∘ String.toList = fun text => pure (id text) := by
      funext text
      exact congrArg some String.ofList_toList
    rw [Node.texts?, List.mapM_map, htext, List.mapM_pure, List.map_id]
    rfl

end Yaml

/-! ### Entries -/

namespace SettingKey

variable {key : SettingKey} {s : Settings} {value : List Char}

/-- Makes the choice of an entry as other settings make it, if they do. -/
def adopt (key : SettingKey) (s made : Settings) : Settings :=
  match key with
  | enableTagSearch => { made with enableTagSearch := s.enableTagSearch }
  | showPathInEmbed => { made with showPathInEmbed := s.showPathInEmbed }
  | preDownloadLangs => { made with preDownloadLangs := s.preDownloadLangs }
  | grammarVersion => { made with grammarVersion := s.grammarVersion }
  | grammarUrlTemplate => { made with grammarUrlTemplate := s.grammarUrlTemplate }
  | cacheDir => { made with cacheDir := s.cacheDir.or made.cacheDir }
  | retryAttempts => { made with retryAttempts := s.retryAttempts }
  | retryBaseDelayMs => { made with retryBaseDelayMs := s.retryBaseDelayMs }

/-- The value of an entry is read back, and makes the same choice. -/
theorem exists_isWritten (h : key.writeValue? s = some value) :
    ∃ node, Yaml.IsWritten value node ∧ ∀ made, key.set? node made = some (key.adopt s made) := by
  -- The keys hold a switch, a number or a text; each kind is read back in one way.
  have hbool {b : Bool} (hb : some (writeWord (if b then "true" else "false")) = some value) :
      ∃ node, Yaml.IsWritten value node ∧ node.bool? = some b :=
    Option.some.inj hb ▸ Yaml.exists_isWritten_bool b
  have hnat {n limit : Nat} (hn : some (writeWord (toString n)) = some value) (hlt : n < limit) :
      ∃ node, Yaml.IsWritten value node ∧ node.natBelow? limit = some n :=
    Option.some.inj hn ▸ Yaml.exists_isWritten_nat hlt
  have htext {text : String} (ht : some (' ' :: Yaml.writeText text.toList) = some value) :
      ∃ node, Yaml.IsWritten value node ∧ node.text? = some text ∧
        node.optionalText? = some (some text) :=
    Option.some.inj ht ▸ Yaml.exists_isWritten_text text
  cases key with
  | enableTagSearch =>
    obtain ⟨node, hnode, hread⟩ := hbool h
    exact ⟨node, hnode, fun made => by rw [set?, hread]; rfl⟩
  | showPathInEmbed =>
    obtain ⟨node, hnode, hread⟩ := hbool h
    exact ⟨node, hnode, fun made => by rw [set?, hread]; rfl⟩
  | preDownloadLangs =>
    obtain ⟨node, hnode, hread⟩ := Yaml.exists_isWritten_texts s.preDownloadLangs
    exact ⟨node, Option.some.inj h ▸ hnode, fun made => by rw [set?, hread]; rfl⟩
  | grammarVersion =>
    obtain ⟨node, hnode, hread, -⟩ := htext h
    exact ⟨node, hnode, fun made => by rw [set?, hread]; rfl⟩
  | grammarUrlTemplate =>
    obtain ⟨node, hnode, hread, -⟩ := htext h
    exact ⟨node, hnode, fun made => by rw [set?, hread]; rfl⟩
  | cacheDir =>
    obtain ⟨dir, hdir, hvalue⟩ := Option.map_eq_some_iff.1 h
    obtain ⟨node, hnode, -, hread⟩ := htext (congrArg some hvalue)
    exact ⟨node, hnode, fun made => by rw [set?, hread, adopt, hdir]; rfl⟩
  | retryAttempts =>
    obtain ⟨node, hnode, hread⟩ := hnat h s.retryAttempts.toNat_lt
    exact ⟨node, hnode, fun made => by
      rw [set?, UInt32.size, hread, Option.map_some, UInt32.ofNat_toNat]
      rfl⟩
  | retryBaseDelayMs =>
    obtain ⟨node, hnode, hread⟩ := hnat h s.retryBaseDelayMs.toNat_lt
    exact ⟨node, hnode, fun made => by
      rw [set?, UInt64.size, hread, Option.map_some, UInt64.ofNat_toNat]
      rfl⟩

/-- Without an entry there is nothing to adopt. -/
theorem adopt_of_writeValue?_eq_none (h : key.writeValue? s = none) (made : Settings) :
    key.adopt s made = made := by
  cases key with
  | cacheDir =>
    rw [adopt, Option.map_eq_none_iff.1 h]
    rfl
  | _ => cases h

theorem ofName?_name (key : SettingKey) : ofName? key.name = some key := by
  cases key <;> decide

/-- All keys are names as they may stand before a colon. -/
theorem isKey_name (key : SettingKey) : Yaml.IsKey key.name.toList where
  head := by cases key <;> exact ⟨_, _, rfl, rfl⟩
  all := by cases key <;> simp [name]
  length_le := by cases key <;> decide

end SettingKey

namespace Settings

/-- The choices that settings make, each of which has an entry. -/
def choices (s : Settings) : List SettingKey :=
  SettingKey.all.filter fun key => (key.writeValue? s).isSome

/-- Entries are read one after another, each making its choice. -/
theorem exists_isLaidOut (s : Settings) {keys : List SettingKey} (hnodup : keys.Nodup) :
    ∃ entries, Yaml.IsLaidOut (keys.flatMap fun key => key.write s) entries ∧
      (entries.map (·.1) = (keys.filter fun key => (key.writeValue? s).isSome).map
        fun key => Yaml.keyNode key.name.toList) ∧
      ∀ taken made, (∀ key ∈ keys, key ∉ taken) → ofEntries? taken made entries =
        some (keys.foldl (fun made key => key.adopt s made) made) := by
  induction keys with
  | nil => exact ⟨[], .nil, rfl, fun _ _ _ => rfl⟩
  | cons key keys ih =>
    obtain ⟨hkey, hkeys⟩ := List.nodup_cons.1 hnodup
    obtain ⟨entries, hentries, hnames, hread⟩ := ih hkeys
    rw [List.flatMap_cons, SettingKey.write]
    cases hvalue : key.writeValue? s with
    | none =>
      -- A choice that was not made is not read, and not adopted.
      refine ⟨entries, hentries, ?_, fun taken made htaken => ?_⟩
      · simpa only [List.filter_cons, hvalue, Option.isSome_none, Bool.false_eq_true, if_false]
          using hnames
      · rw [hread taken made fun key' hmem => htaken key' (List.mem_cons_of_mem key hmem),
          List.foldl_cons, SettingKey.adopt_of_writeValue?_eq_none hvalue]
    | some value =>
      obtain ⟨node, hnode, hset⟩ := SettingKey.exists_isWritten hvalue
      refine ⟨(Yaml.keyNode key.name.toList, node) :: entries, ?_, ?_, fun taken made htaken => ?_⟩
      · simp only [List.append_assoc, List.cons_append]
        exact .cons key.isKey_name hnode hentries
      · simp only [List.filter_cons, hvalue, Option.isSome_some, if_true, List.map_cons, hnames]
      · -- No choice is made twice.
        have hfresh : taken.contains key = false := by
          simpa using htaken key List.mem_cons_self
        have hothers : ∀ key' ∈ keys, key' ∉ key :: taken := by
          intro key' hmem
          rw [List.mem_cons, not_or]
          exact ⟨fun heq => hkey (heq ▸ hmem), htaken key' (List.mem_cons_of_mem key hmem)⟩
        rw [ofEntries?, Yaml.keyNode, Yaml.Node.text?, String.ofList_toList]
        simp only [Option.bind_eq_bind, Option.bind_some, SettingKey.ofName?_name, hfresh,
          Bool.false_eq_true, if_false, hset, hread _ _ hothers]
        rfl

/-- Settings are known by their choices: taking all of them over, key by key, makes the settings. -/
theorem foldl_adopt_standard (s : Settings) :
    SettingKey.all.foldl (fun made key => key.adopt s made) standard = s := by
  simp [SettingKey.all, SettingKey.adopt, standard]

/-- Settings are written as a mapping with an entry for each choice that they make, and what the
    entries say are the settings. -/
theorem exists_readDocument?_render (s : Settings) :
    ∃ entries, Yaml.readDocument? s.render.toList = some (.mapping entries) ∧
      (entries.map (·.1) = s.choices.map fun key => .scalar .plain none key.name) ∧
      ofEntries? [] standard entries = some s := by
  have hnodup : SettingKey.all.Nodup := by decide
  obtain ⟨entries, hentries, hnames, hread⟩ := exists_isLaidOut s hnodup
  have hne : entries ≠ [] := by
    rintro rfl
    generalize htext : (SettingKey.all.flatMap fun key => key.write s) = text at hentries
    cases hentries
    simp [SettingKey.all, SettingKey.write, SettingKey.writeValue?] at htext
  refine ⟨entries, ?_, ?_, ?_⟩
  · rw [render, String.toList_ofList, Yaml.readDocument?_of_isLaidOut hentries hne]
  · simpa only [choices, Yaml.keyNode, String.ofList_toList] using hnames
  · rw [hread [] standard fun _ _ => List.not_mem_nil, foldl_adopt_standard]

/-- Settings are read back as they are, whatever they say. -/
theorem ofText?_render (s : Settings) : ofText? s.render = some s := by
  obtain ⟨entries, hdocument, -, hread⟩ := exists_readDocument?_render s
  rw [ofText?, hdocument, Option.bind_some, ofNode?, hread]

end Settings

end SymbolPaths
