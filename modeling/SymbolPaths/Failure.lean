import SymbolPaths.Disk.Basic

/-!
# Failures

Why something could not be done, one constructor for each cause, and the text
that tells it. What goes wrong while a grammar is acquired is told apart from
what goes wrong around it, since it decides whether trying again makes sense.

* `AcquireError.isRetryable_iff`: only a failed download is worth another try.
-/

namespace SymbolPaths

/-- Why a grammar could not be acquired. -/
inductive AcquireError where
  | unsupportedLanguage (lang : String)
  | inProgress (lang : String)
  | aborted (lang : String)
  | network (url reason : String)
  | engineInit (reason : String)
  | invalidGrammar (lang reason : String)
  | cacheIo (cause : IoError)
  deriving DecidableEq, Repr, Inhabited

namespace AcquireError

/-- The text of the failure. -/
def message : AcquireError → String
  | unsupportedLanguage lang => "unsupported language: " ++ lang
  | inProgress lang => "acquisition of " ++ lang ++ " is already in progress"
  | aborted lang => "acquisition of " ++ lang ++ " was aborted"
  | network url reason => "failed to fetch " ++ url ++ ": " ++ reason
  | engineInit reason => "grammar engine failed to initialize: " ++ reason
  | invalidGrammar lang reason => "invalid grammar payload for " ++ lang ++ ": " ++ reason
  | cacheIo cause => "grammar cache I/O error: " ++ cause.message

/-- Whether another attempt may end differently. -/
def isRetryable : AcquireError → Bool
  | network _ _ => true
  | _ => false

/-- Whether the failure is that somebody asked for it. -/
def isAborted : AcquireError → Bool
  | aborted _ => true
  | _ => false

theorem isRetryable_iff {e : AcquireError} :
    e.isRetryable ↔ ∃ url reason, e = network url reason := by
  cases e <;> simp [isRetryable]

end AcquireError

/-- What is wrong with the settings, or with what was asked for under them. -/
inductive ConfigError where
  | emptyVersion
  | missingMarker (marker template : String)
  /-- The settings cannot be read as such, with the reason. -/
  | malformed (reason : String)
  | noGrammar (file : String)
  | notALink (text : String)
  | noSymbol (path file : String)
  | grammarsFailed (failed total : Nat)
  deriving DecidableEq, Repr, Inhabited

namespace ConfigError

/-- The text of the failure. -/
def message : ConfigError → String
  | emptyVersion => "grammar-version must not be empty"
  | missingMarker marker template => "grammar URL template is missing " ++ marker ++ ": " ++ template
  | malformed reason => reason
  | noGrammar file =>
    "no grammar for '" ++ file ++ "'. Run 'codetag langs' to list supported extensions"
  | notALink text => "'" ++ text ++ "' is not a code link"
  | noSymbol path file =>
    "no symbol at '" ++ path ++ "' in " ++ file ++ ". Run 'codetag tags " ++ file ++
      "' to list paths"
  | grammarsFailed failed total =>
    toString failed ++ " of " ++ toString total ++ " grammars failed to load"

end ConfigError

/-- Why a command failed. -/
inductive Failure where
  | acquire (cause : AcquireError)
  | io (cause : IoError)
  | query (lang reason : String)
  | parser (reason : String)
  | config (cause : ConfigError)
  deriving DecidableEq, Repr, Inhabited

namespace Failure

/-- The text of the failure. -/
def message : Failure → String
  | acquire cause => cause.message
  | io cause => "I/O error: " ++ cause.message
  | query lang reason => "invalid tags query for " ++ lang ++ ": " ++ reason
  | parser reason => "parser error: " ++ reason
  | config cause => "configuration error: " ++ cause.message

/-- The texts of the failures behind this one, nearest first. -/
def causes : Failure → List String
  | acquire (.cacheIo cause) => [cause.message]
  | io cause => [cause.message]
  | _ => []

end Failure

end SymbolPaths
