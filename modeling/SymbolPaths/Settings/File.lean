import SymbolPaths.Settings.Key

/-!
# Settings on the disk

Settings are kept in a file. A file that is read has to make sense; where there
is none, nothing was chosen. Saving makes the directory of the file as needed.
-/

namespace SymbolPaths.Settings

/-- The file of the settings, given the directory in which programs keep such
    things. -/
def usualPath (home : String) : String := FilePath.join home "codetag/settings.yaml"

/-- Reads settings that make sense. -/
def parse (text : String) : Except Failure Settings :=
  match ofText? text with
  | none => .error (.config (.malformed "the settings are malformed"))
  | some s =>
    match s.validate with
    | .error e => .error (.config e)
    | .ok () => .ok s

/-- Reads the settings in a file. -/
def load (path : String) (d : Disk) : Except Failure Settings :=
  match d.readText path with
  | .error e => .error (.io e)
  | .ok text => parse text

/-- Reads the settings in a file if there is one. -/
def loadOrStandard (path : String) (d : Disk) : Except Failure Settings :=
  match load path d with
  | .error (.io .notFound) => .ok standard
  | r => r

/-- Writes settings into a file. -/
def save (s : Settings) (path : String) (d : Disk) : Disk × Except Failure Unit :=
  match d.makeDirs (FilePath.parent path) with
  | (d, .error e) => (d, .error (.io e))
  | (d, .ok ()) =>
    match d.writeFile path (Text.encode s.render) with
    | (d, .error e) => (d, .error (.io e))
    | (d, .ok ()) => (d, .ok ())

end SymbolPaths.Settings
