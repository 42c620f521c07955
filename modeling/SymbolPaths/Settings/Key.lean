import SymbolPaths.Settings.Basic
import SymbolPaths.Yaml.Document
import SymbolPaths.Yaml.Scalar.Written

/-!
# The form of settings

Settings are written as a mapping in YAML with an entry for each choice, in a
fixed order; a choice that was not made has no entry. When they are read,
entries may be in any order, those without a meaning do not count, and no
choice may be made twice.

* `Settings.render` writes settings, and `Settings.ofText?` reads them.
-/

namespace SymbolPaths

/-- The entries that have a meaning. -/
inductive SettingKey where
  | enableTagSearch
  | showPathInEmbed
  | preDownloadLangs
  | grammarVersion
  | grammarUrlTemplate
  | cacheDir
  | retryAttempts
  | retryBaseDelayMs
  deriving DecidableEq, Repr, Inhabited

namespace SettingKey

/-- The entries in the order in which they are written. -/
def all : List SettingKey := [
  enableTagSearch, showPathInEmbed, preDownloadLangs, grammarVersion, grammarUrlTemplate,
  cacheDir, retryAttempts, retryBaseDelayMs]

/-- The name of an entry. -/
def name : SettingKey → String
  | enableTagSearch => "enable-tag-search"
  | showPathInEmbed => "show-path-in-embed"
  | preDownloadLangs => "pre-download-langs"
  | grammarVersion => "grammar-version"
  | grammarUrlTemplate => "grammar-url-template"
  | cacheDir => "cache-dir"
  | retryAttempts => "retry-attempts"
  | retryBaseDelayMs => "retry-base-delay-ms"

/-- The entry of a name. -/
def ofName? (name : String) : Option SettingKey := all.find? (·.name = name)

end SettingKey

/-! ### Writing -/

namespace SettingKey

/-- The text of a choice that is written as a word. -/
def writeWord (word : String) : List Char := ' ' :: word.toList ++ ['\n']

/-- The value of an entry, with what separates it from the name; nothing if the
    choice was not made. -/
def writeValue? (key : SettingKey) (s : Settings) : Option (List Char) :=
  match key with
  | enableTagSearch => some (writeWord (if s.enableTagSearch then "true" else "false"))
  | showPathInEmbed => some (writeWord (if s.showPathInEmbed then "true" else "false"))
  | preDownloadLangs =>
    some (if s.preDownloadLangs.isEmpty then writeWord "[]"
      else '\n' :: s.preDownloadLangs.flatMap fun lang => '-' :: ' ' :: Yaml.writeText lang.toList)
  | grammarVersion => some (' ' :: Yaml.writeText s.grammarVersion.toList)
  | grammarUrlTemplate => some (' ' :: Yaml.writeText s.grammarUrlTemplate.toList)
  | cacheDir => s.cacheDir.map fun dir => ' ' :: Yaml.writeText dir.toList
  | retryAttempts => some (writeWord (toString s.retryAttempts.toNat))
  | retryBaseDelayMs => some (writeWord (toString s.retryBaseDelayMs.toNat))

/-- An entry. -/
def write (key : SettingKey) (s : Settings) : List Char :=
  match key.writeValue? s with
  | none => []
  | some value => key.name.toList ++ ':' :: value

end SettingKey

/-- Settings as a text. -/
def Settings.render (s : Settings) : String :=
  String.ofList (SettingKey.all.flatMap fun key => key.write s)

/-! ### Reading -/

namespace Yaml.Node

/-- The text of a scalar. -/
def text? : Node → Option String
  | scalar _ _ text => some text
  | _ => none

/-- The truth value of a node. -/
def bool? : Node → Option Bool
  | scalar form tag text => if form.admits tag boolTag then toBool? text else none
  | _ => none

/-- The number that a node stands for, if it is below a limit. -/
def natBelow? (limit : Nat) : Node → Option Nat
  | scalar form tag text =>
    if form.admits tag intTag then (toNat? text).filter (· < limit) else none
  | _ => none

/-- The texts of a sequence. Where nothing is written there are none. -/
def texts? : Node → Option (List String)
  | sequence items => items.mapM text?
  | scalar _ _ text => if text = "" then some [] else none
  | _ => none

/-- The text of a scalar that may stand for nothing. A tag decides what it stands
    for. -/
def optionalText? : Node → Option (Option String)
  | scalar .plain none text => some (if text = "" || isNull text then none else some text)
  | scalar .plain (some tag) text =>
    if tag ≠ nullTag then some (some text) else if isNull text then some none else none
  | scalar _ _ text => some (some text)
  | _ => none

end Yaml.Node

/-- Makes the choice of an entry. -/
def SettingKey.set? (key : SettingKey) (value : Yaml.Node) (s : Settings) : Option Settings :=
  match key with
  | enableTagSearch => value.bool?.map fun b => { s with enableTagSearch := b }
  | showPathInEmbed => value.bool?.map fun b => { s with showPathInEmbed := b }
  | preDownloadLangs => value.texts?.map fun langs => { s with preDownloadLangs := langs }
  | grammarVersion => value.text?.map fun text => { s with grammarVersion := text }
  | grammarUrlTemplate => value.text?.map fun text => { s with grammarUrlTemplate := text }
  | cacheDir => value.optionalText?.map fun dir => { s with cacheDir := dir }
  | retryAttempts =>
    (value.natBelow? UInt32.size).map fun n => { s with retryAttempts := UInt32.ofNat n }
  | retryBaseDelayMs =>
    (value.natBelow? UInt64.size).map fun n => { s with retryBaseDelayMs := UInt64.ofNat n }

namespace Settings

/-- Makes the choices of entries, after those in `made`. -/
def ofEntries? (made : List SettingKey) (s : Settings) :
    List (Yaml.Node × Yaml.Node) → Option Settings
  | [] => some s
  | (key, value) :: rest => do
    match SettingKey.ofName? (← key.text?) with
    | none => ofEntries? made s rest
    | some k =>
      if made.contains k then none
      else ofEntries? (k :: made) (← k.set? value s) rest

/-- The settings that a document says. Nothing said is nothing chosen. -/
def ofNode? : Yaml.Node → Option Settings
  | .mapping entries => ofEntries? [] standard entries
  | .scalar _ _ text => if text = "" then some standard else none
  | _ => none

/-- Reads settings. -/
def ofText? (text : String) : Option Settings := (Yaml.readDocument? text.toList).bind ofNode?

end Settings

end SymbolPaths
