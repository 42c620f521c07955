import SymbolPaths.Grammar.Cache
import SymbolPaths.Grammar.Retry
import SymbolPaths.Grammar.Source
import SymbolPaths.Text.Blank

/-!
# Settings

What a user may choose: whether symbols are searched and how they are shown,
which grammars are fetched ahead, where grammars come from and are stored, and
how often a download is tried again.
-/

namespace SymbolPaths

/-- The choices of a user. -/
structure Settings where
  /-- Whether symbols are suggested. -/
  enableTagSearch : Bool
  /-- Whether the path of a symbol is shown below its code. -/
  showPathInEmbed : Bool
  /-- The languages whose grammars are fetched ahead. -/
  preDownloadLangs : List String
  grammarVersion : String
  grammarUrlTemplate : String
  /-- The directory of stored grammars, if it is not the usual one. -/
  cacheDir : Option String
  /-- How often a download is tried again. -/
  retryAttempts : UInt32
  /-- The delay before the first time, in milliseconds. -/
  retryBaseDelayMs : UInt64
  deriving DecidableEq, Repr, Inhabited

namespace Settings

/-- The settings of a user who chose nothing. -/
def standard : Settings :=
  { enableTagSearch := true
    showPathInEmbed := true
    preDownloadLangs := []
    grammarVersion := GrammarSource.defaultVersion
    grammarUrlTemplate := GrammarSource.defaultTemplate
    cacheDir := none
    retryAttempts := 3
    retryBaseDelayMs := 1000 }

/-- Where grammars come from. -/
def grammarSource (s : Settings) : Except ConfigError GrammarSource :=
  GrammarSource.make? s.grammarUrlTemplate s.grammarVersion

/-- Whether the settings make sense: the version says something, and grammars come
    from somewhere. -/
def validate (s : Settings) : Except ConfigError Unit :=
  if Text.hasInk s.grammarVersion.toList then s.grammarSource.map fun _ => ()
  else .error .emptyVersion

/-- How downloads are tried again. -/
def retryPolicy (s : Settings) : RetryPolicy :=
  ⟨s.retryAttempts, Delay.ofMilliseconds s.retryBaseDelayMs⟩

/-- The cache of grammars, given the directory in which programs keep such things. -/
def grammarCache (s : Settings) (home : String) : GrammarCache :=
  ⟨s.cacheDir.getD (FilePath.join home "codetag/langs")⟩

end Settings

end SymbolPaths
