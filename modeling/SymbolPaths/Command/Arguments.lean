import SymbolPaths.Number.Digit

/-!
# Arguments

What is asked for on the command line. The first word names the command, and
the words after it say what it works on; options may stand anywhere, some of
them before the command as well. After two hyphens there are only words. A
short option follows one hyphen, several of them may share it, and the value of
the last may follow at once.

The arguments are read in order, and the first thing that is wrong, or that
asks for the version or for help, decides.

* `Request.parse?`: what is asked for, if the arguments make sense.
-/

namespace SymbolPaths

/-- What is to be done. -/
inductive Command where
  /-- The symbols of a file are listed. -/
  | outline (file : String) (json : Bool)
  /-- The code that a link leads to is printed. -/
  | excerpt (link : String)
  /-- The symbols of a file are listed, the nearest to a query first. -/
  | suggest (file : String) (query : Option String) (limit : Nat)
  /-- The languages are listed. -/
  | languages
  /-- Grammars are downloaded. -/
  | fetch (langs : List String)
  deriving DecidableEq, Repr, Inhabited

/-- What is asked for: the version, help, or that a command is run with settings
    from a file. -/
inductive Request where
  | version (command : Option String)
  | help
  | run (config : Option String) (command : Command)
  deriving DecidableEq, Repr, Inhabited

/-! ### Options -/

/-- The options. -/
inductive CliOption where
  | config
  | verbose
  | version
  | help
  | json
  | limit
  deriving DecidableEq, Repr, Inhabited

namespace CliOption

/-- The name after two hyphens. -/
def long : CliOption → String
  | config => "config"
  | verbose => "verbose"
  | version => "version"
  | help => "help"
  | json => "json"
  | limit => "limit"

/-- The name after one hyphen. -/
def short? : CliOption → Option Char
  | config => some 'c'
  | verbose => some 'v'
  | version => some 'V'
  | help => some 'h'
  | json => none
  | limit => some 'l'

/-- Whether the option has a value. -/
def hasValue : CliOption → Bool
  | config => true
  | limit => true
  | _ => false

/-- The options that may stand before the command. -/
def common : List CliOption := [config, verbose, version, help]

end CliOption

/-- What an argument, or a part of it, comes to. -/
inductive Argument where
  | option (o : CliOption) (value : String)
  | word (text : String)
  /-- A word after two hyphens. -/
  | trailing (text : String)
  | wrong
  deriving DecidableEq, Repr, Inhabited

namespace Argument

/-- Whether an argument is an option and cannot be the value of another. -/
def isOption (text : String) : Bool := text.toList.head? == some '-' && text ≠ "-"

/-- The value after an equals sign. -/
def attached (value : List Char) : String :=
  String.ofList (if value.head? == some '=' then value.tail else value)

/-- The short options of an argument. The last one may have to take its value from
    the next argument. -/
def ofCluster (options : List CliOption) : List Char → List Argument × Option CliOption
  | [] => ([], none)
  | c :: cs =>
    match options.find? (·.short? = some c) with
    | none => ([wrong], none)
    | some o =>
      if o.hasValue then
        if cs.isEmpty then ([], some o) else ([option o (attached cs)], none)
      else
        let (items, pending) := ofCluster options cs
        (option o "" :: items, pending)

/-- The option of an argument that starts with two hyphens, given what follows
    them. It may have to take its value from the next argument. -/
def ofLong (options : List CliOption) (cs : List Char) : List Argument × Option CliOption :=
  let name := cs.takeWhile (· ≠ '=')
  let value := cs.dropWhile (· ≠ '=')
  match options.find? (·.long = String.ofList name) with
  | none => ([wrong], none)
  | some o =>
    if o.hasValue then
      if value.isEmpty then ([], some o) else ([option o (attached value)], none)
    else if value.isEmpty then ([option o ""], none)
    else ([wrong], none)

/-- The options of an argument that is one. -/
def ofOption (options : List CliOption) (text : String) : List Argument × Option CliOption :=
  match text.toList with
  | '-' :: '-' :: cs => ofLong options cs
  | '-' :: cs => ofCluster options cs
  | _ => ([wrong], none)

/-- Reads arguments; at a first word it may `stop`, and the arguments after it are
    left. -/
def readAll (options : List CliOption) (stop : Bool) :
    List String → List Argument × List String
  | [] => ([], [])
  | text :: rest =>
    if text = "--" then (rest.map trailing, [])
    else if isOption text then
      match ofOption options text, rest with
      | (items, none), rest =>
        let (more, left) := readAll options stop rest
        (items ++ more, left)
      | (items, some _), [] => (items ++ [wrong], [])
      | (items, some o), value :: rest =>
        if isOption value then (items ++ [wrong], [])
        else
          let (more, left) := readAll options stop rest
          (items ++ option o value :: more, left)
    else if stop then ([word text], rest)
    else
      let (more, left) := readAll options stop rest
      (word text :: more, left)

end Argument

/-! ### Requests -/

/-- What the arguments said so far. -/
structure Arguments where
  config : Option String
  json : Bool
  limit : Option Nat
  words : List String
  deriving DecidableEq, Repr, Inhabited

namespace Arguments

/-- Nothing was said. -/
def none : Arguments := { config := .none, json := false, limit := .none, words := [] }

/-- A number of at most 64 bits. -/
def number? (text : String) : Option Nat :=
  let digits := if text.toList.head? == some '+' then text.toList.tail else text.toList
  (Number.ofDigits? 10 digits).filter (· < UInt64.size)

end Arguments

/-- How the reading of arguments ends that need not be read to their end. -/
inductive EarlyEnd where
  | wrong
  | version
  | help
  deriving DecidableEq, Repr, Inhabited

namespace Arguments

/-- Takes in an argument. There are at most `most` words, and the first of them has
    to be a path if `path`. Only the option for more messages may be repeated. -/
def add (most : Nat) (path : Bool) (a : Arguments) : Argument → Except EarlyEnd Arguments
  | .wrong => .error .wrong
  | .option .version _ => .error .version
  | .option .help _ => .error .help
  | .option .verbose _ => .ok a
  | .option .json _ => if a.json then .error .wrong else .ok { a with json := true }
  | .option .config value =>
    if a.config.isSome || value = "" then .error .wrong else .ok { a with config := some value }
  | .option .limit value =>
    match a.limit, number? value with
    | .none, some n => .ok { a with limit := some n }
    | _, _ => .error .wrong
  | .word text | .trailing text =>
    if most ≤ a.words.length || (path && a.words.isEmpty && text = "") then .error .wrong
    else .ok { a with words := a.words ++ [text] }

end Arguments

/-- What a command accepts: its own options, how many words at least and at most,
    and whether the first of them is a path. -/
structure CommandForm where
  name : String
  options : List CliOption
  least : Nat
  most : Option Nat
  path : Bool
  /-- The command that the arguments make. -/
  make : Arguments → Command

namespace CommandForm

/-- The number of symbols that are suggested unless another is asked for. -/
def usualLimit : Nat := 20

/-- The commands. -/
def all : List CommandForm := [
  ⟨"tags", [.json], 1, some 1, true, fun a => .outline (a.words.headD "") a.json⟩,
  ⟨"show", [], 1, some 1, false, fun a => .excerpt (a.words.headD "")⟩,
  ⟨"suggest", [.limit], 1, some 2, true,
    fun a => .suggest (a.words.headD "") a.words.tail.head? (a.limit.getD usualLimit)⟩,
  ⟨"langs", [], 0, some 0, false, fun _ => .languages⟩,
  ⟨"fetch", [], 0, none, false, fun a => .fetch a.words⟩]

/-- The request that the arguments after the name of a command make. -/
def parse? (form : CommandForm) (config : Option String) (args : List String) : Option Request :=
  let (items, _) := Argument.readAll (CliOption.common ++ form.options) false args
  let most := form.most.getD args.length
  match items.foldlM (Arguments.add most form.path) Arguments.none with
  | .error .wrong => none
  | .error .version => some (.version (some form.name))
  | .error .help => some .help
  | .ok a =>
    if a.words.length < form.least then none
    else some (.run (a.config.or config) (form.make a))

end CommandForm

namespace Request

/-- Help may be asked for as a whole, with a command, or with help itself. -/
def help? : List String → Option Request
  | [] => some .help
  | [name] =>
    if name = "help" || CommandForm.all.any (·.name = name) then some .help else none
  | _ => none

/-- What the arguments ask for, if they make sense. -/
def parse? (args : List String) : Option Request :=
  let (items, rest) := Argument.readAll CliOption.common true args
  let (options, name) := match items.getLast? with
    | some (.word name) => (items.dropLast, some name)
    | _ => (items, none)
  match options.foldlM (Arguments.add 0 false) Arguments.none, name with
  | .error .version, _ => some (.version none)
  | .error .help, _ => some .help
  | .error .wrong, _ => none
  | .ok _, none => none
  | .ok a, some name =>
    if name = "help" then help? rest
    else
      match CommandForm.all.find? (·.name = name) with
      | none => none
      | some form => form.parse? a.config rest

end Request

end SymbolPaths
