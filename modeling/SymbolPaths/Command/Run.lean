import SymbolPaths.Command.Arguments
import SymbolPaths.Grammar.Preload
import SymbolPaths.Language.Label
import SymbolPaths.Link
import SymbolPaths.Settings.File
import SymbolPaths.Suggest.Ranking
import SymbolPaths.Symbol.Outline
import SymbolPaths.Symbol.Parse

/-!
# Running commands

What a command prints, what it does to the disk, and how it ends. Commands that
look into a file of code start an engine of their own; what it loads is gone
when they are over, except for what is stored.

* `Command.run` runs a command under settings;
* `Host.serve` reads the arguments and the settings and runs the command.
-/

namespace SymbolPaths

/-- What surrounds the program. -/
structure Host where
  /-- The directory in which programs keep their settings. -/
  configHome : String
  /-- The directory in which programs keep what they can get again. -/
  cacheHome : String
  engine : Except AcquireError Unit
  network : Nat → String → Retry.Call AcquireError Bytes
  parser : SyntaxParser

/-- How a run of the program ends. -/
structure Ending where
  /-- Zero after success, two if the arguments make no sense, one after any other
      failure. -/
  code : Nat
  out : String
  err : String
  deriving DecidableEq, Repr, Inhabited

/-- What a command came to: what it printed, and its failure if it failed. -/
structure Outcome where
  printed : String
  failure : Option Failure
  deriving DecidableEq, Repr, Inhabited

namespace Outcome

/-- A command printed something and succeeded. -/
def ok (printed : String) : Outcome := ⟨printed, none⟩

/-- A command failed and printed nothing. -/
def failed (cause : Failure) : Outcome := ⟨"", some cause⟩

end Outcome

namespace Host

/-- The loader and what it works with, under settings. -/
def surroundings (h : Host) (s : Settings) : Except Failure Surroundings :=
  match s.grammarSource with
  | .error e => .error (.config e)
  | .ok source =>
    .ok {
      loader := { source, cache := some (s.grammarCache h.cacheHome), policy := s.retryPolicy }
      engine := h.engine
      network := h.network }

/-- A session whose engine is up. -/
def session (env : Surroundings) (d : Disk) : Except Failure Session :=
  match (Session.ofDisk d).bootstrap env with
  | (_, .error e) => .error (.acquire e)
  | (s, .ok ()) => .ok s

/-- The symbols of a file, whose language has to be known. -/
def parse (h : Host) (s : Settings) (d : Disk) (file : String) :
    Disk × Except Failure SymbolTree :=
  match h.surroundings s with
  | .error e => (d, .error e)
  | .ok env =>
    match session env d with
    | .error e => (d, .error e)
    | .ok start =>
      match start.parse env h.parser file with
      | (s, .error e) => (s.disk, .error e)
      | (s, .ok none) => (s.disk, .error (.config (.noGrammar file)))
      | (s, .ok (some t)) => (s.disk, .ok t)

end Host

namespace Command

/-- A text with spaces after it up to a width. -/
def padRight (width : Nat) (s : String) : String :=
  s ++ String.ofList (List.replicate (width - s.length) ' ')

/-- A text with spaces before it up to a width. -/
def padLeft (width : Nat) (s : String) : String :=
  String.ofList (List.replicate (width - s.length) ' ') ++ s

/-- Lines, each with its end. -/
def unlines (lines : List String) : String := String.join (lines.map (· ++ "\n"))

/-- What is printed where there is nothing to list. -/
def noSymbols (file : String) : String := "No symbols found in " ++ file ++ "\n"

/-- The list of the symbols of a file. -/
def printOutline (t : SymbolTree) (file : String) (json : Bool) : String :=
  if json then (JsonValue.list (Outline.document t t.outline)).pretty 0 ++ "\n"
  else if t.size = 0 then noSymbols file
  else
    unlines ((toString t.size ++ " symbols in " ++ file ++ ":") :: "" :: Outline.lines t t.outline)

/-- The code of a symbol, with its path below if `footer`. -/
def printSymbol (t : SymbolTree) (n : Nat) (footer : Bool) : String :=
  String.ofList (t.contentOf n) ++ (if footer then "\n\n" ++ (t.pathOf n).toText else "") ++ "\n"

/-- The code that a link leads to. A link without a path leads to all of its file. -/
def runExcerpt (h : Host) (s : Settings) (d : Disk) (link : String) : Disk × Outcome :=
  match CodeLink.parseInner? link with
  | none => (d, .failed (.config (.notALink link)))
  | some l =>
    match l.path with
    | none =>
      match d.readText l.file with
      | .error e => (d, .failed (.io e))
      | .ok text => (d, .ok (String.ofList (Text.dedent text.toList)))
    | some path =>
      match h.parse s d l.file with
      | (d, .error e) => (d, .failed e)
      | (d, .ok t) =>
        match t.at? path with
        | none => (d, .failed (.config (.noSymbol path.toText l.file)))
        | some n => (d, .ok (printSymbol t n s.showPathInEmbed))

/-- The line of a suggested symbol. -/
def suggestLine (t : SymbolTree) (query : Option String) (n : Nat) : String :=
  let score := match query with
    | none => ""
    | some q => padLeft 5 ((Suggest.scoreOf t q n).toFixed 1)
  "  " ++ score ++ " " ++ (t.pathOf n).toText ++ " [" ++ t.lineRange n ++ "]"

/-- The symbols of a file that are suggested for a query. -/
def printSuggestions (t : SymbolTree) (file : String) (query : Option String) (limit : Nat) :
    String :=
  let ranked := Suggest.rank t query
  if ranked.isEmpty then noSymbols file
  else unlines ((ranked.take limit).map (suggestLine t query))

/-- The line of a language. -/
def languageLine (l : Language) (cached : Bool) : String :=
  "  " ++ padRight 12 l.name ++ " " ++ padRight 12 (Language.label l.name) ++ " " ++
    padRight 28 (" ".intercalate l.extensions) ++ " " ++
    (if l.isTaggable then "tags" else "parse-only") ++ " " ++ if cached then "cached" else ""

/-- The list of the languages, given which of them are stored. -/
def printLanguages (isCached : Language → Bool) : String :=
  unlines (
    (toString Language.all.length ++ " languages (" ++ toString Language.taggable.length ++
      " with symbol tags):") :: "" ::
    Language.all.map fun l => languageLine l (isCached l))

/-- The line that tells what became of a language. -/
def progressLine (e : PreloadEvent) : String :=
  "[" ++ toString e.completed ++ "/" ++ toString e.total ++ "] " ++ Language.label e.lang ++
    match e.outcome with
    | .ok () => " ok"
    | .error cause => " failed: " ++ cause.message

/-- The languages to fetch: those asked for, or else those of the settings, or else
    those with symbols. -/
def langsToFetch (s : Settings) (langs : List String) : List String :=
  if !langs.isEmpty then langs
  else if !s.preDownloadLangs.isEmpty then s.preDownloadLangs
  else Language.taggable.map (·.name)

/-- Fetches the grammars of languages. -/
def runFetch (h : Host) (s : Settings) (d : Disk) (langs : List String) : Disk × Outcome :=
  match h.surroundings s with
  | .error e => (d, .failed e)
  | .ok env =>
    match Host.session env d with
    | .error e => (d, .failed e)
    | .ok start =>
      let (session, events) := start.preload env langs
      let report := PreloadReport.ofEvents events
      let told := unlines (events.map progressLine)
      if report.isComplete then
        (session.disk,
          .ok (told ++ "\nFetched " ++ toString report.loaded.length ++ " grammars\n"))
      else
        (session.disk,
          ⟨told, some (.config (.grammarsFailed report.failed.length langs.length))⟩)

/-- What is printed instead of suggestions when they are switched off. -/
def suggestionsOff : String := "hint: tag search is disabled (enable-tag-search: false)\n"

/-- Runs a command. -/
def run (h : Host) (s : Settings) (d : Disk) : Command → Disk × Outcome
  | outline file json =>
    match h.parse s d file with
    | (d, .error e) => (d, .failed e)
    | (d, .ok t) => (d, .ok (printOutline t file json))
  | excerpt link => runExcerpt h s d link
  | suggest file query limit =>
    if !s.enableTagSearch then (d, .ok suggestionsOff)
    else
      match h.parse s d file with
      | (d, .error e) => (d, .failed e)
      | (d, .ok t) => (d, .ok (printSuggestions t file query limit))
  | languages =>
    (d, .ok (printLanguages fun l => (s.grammarCache h.cacheHome).exists? l.name d))
  | fetch langs => runFetch h s d (langsToFetch s langs)

end Command

namespace Host

/-- The version of the program. -/
def version : String := "0.1.0"

/-- The lines that tell a failure and what caused it. -/
def tell (cause : Failure) : String :=
  Command.unlines (("error: " ++ cause.message) :: cause.causes.map ("  caused by: " ++ ·))

/-- How a run ends in which a command came to an outcome. -/
def ending (o : Outcome) : Ending :=
  match o.failure with
  | none => { code := 0, out := o.printed, err := "" }
  | some cause => { code := 1, out := o.printed, err := tell cause }

/-- How the program is used. -/
def usage : String :=
  Command.unlines [
    "Usage: codetag [OPTIONS] COMMAND", "",
    "  tags FILE [--json]               list the symbols of a file",
    "  show LINK                        print the code that a link leads to",
    "  suggest FILE [QUERY] [-l LIMIT]  list the symbols nearest to a query",
    "  langs                            list the languages",
    "  fetch [LANGUAGE...]              download grammars", "",
    "  -c, --config FILE                read the settings from a file",
    "  -v, --verbose                    tell more; may be repeated",
    "  -V, --version                    print the version",
    "  -h, --help                       print this"]

/-- Runs the program with arguments. -/
def serve (h : Host) (args : List String) (d : Disk) : Disk × Ending :=
  match Request.parse? args with
  | none => (d, { code := 2, out := "", err := usage })
  | some .help => (d, { code := 0, out := usage, err := "" })
  | some (.version command) =>
    let name := match command with
      | none => "codetag"
      | some c => "codetag-" ++ c
    (d, { code := 0, out := name ++ " " ++ version ++ "\n", err := "" })
  | some (.run config command) =>
    match Settings.loadOrStandard (config.getD (Settings.usualPath h.configHome)) d with
    | .error e => (d, ending (.failed e))
    | .ok s =>
      let (d, o) := command.run h s d
      (d, ending o)

end Host

end SymbolPaths
