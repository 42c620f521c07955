import SymbolPaths.Command.Run
import SymbolPaths.Http.Fetch

/-!
# The program

The program on the files of the directory that it is started in. It reads the
files that the arguments and the settings name, runs on them, prints what there
is to print, and writes the files that have changed. It has no parser of its
own, so every file is a single node to it, and no network.
-/

namespace SymbolPaths.Program

/-- What surrounds the program, with the directories of settings and of stored
    grammars. -/
def host (configHome cacheHome : String) : Host :=
  { configHome
    cacheHome
    engine := .ok ()
    network := fun _ url => { duration := 0, outcome := Http.fetch url .silence }
    parser := fun _ text => SourceTree.whole (Text.encode text) Grammar.dataRootKind }

/-- The settings file that the arguments name. -/
def settingsPath (h : Host) (args : List String) : String :=
  match Request.parse? args with
  | some (.run (some path) _) => path
  | _ => Settings.usualPath h.configHome

/-- The file of code that the arguments name. -/
def codePaths (args : List String) : List String :=
  match Request.parse? args with
  | some (.run _ (.outline file _)) => [file]
  | some (.run _ (.suggest file _ _)) => [file]
  | some (.run _ (.excerpt link)) => ((CodeLink.parseInner? link).map (·.file)).toList
  | _ => []

/-- The files of stored grammars, under settings. -/
def grammarPaths (h : Host) (s : Settings) : List String :=
  Language.all.map fun l => (s.grammarCache h.cacheHome).path l.name

/-- Puts a file on a disk. -/
def addFile (d : Disk) (path : String) (bytes : Bytes) : Disk :=
  ((d.makeDirs (FilePath.parent path)).1.writeFile path bytes).1

/-- Puts the file at a path on a disk, if there is one. What cannot be read as a
    file is taken for a directory. -/
def readFile (d : Disk) (path : String) : IO Disk :=
  try
    let bytes ← IO.FS.readBinFile path
    return addFile d path bytes.data.toList
  catch
    | .noFileOrDirectory .. => return d
    | _ => return (d.makeDirs path).1

/-- Writes the file at a path if it changed. -/
def writeFile (before after : Disk) (path : String) : IO Unit :=
  match after.read path with
  | .error _ => return
  | .ok bytes => do
    if (before.read path).toOption == some bytes then return
    let dir := FilePath.parent path
    if dir ≠ "" then IO.FS.createDirAll dir
    IO.FS.writeBinFile path ⟨bytes.toArray⟩

/-- Runs the program with arguments. -/
def run (args : List String) : IO UInt32 := do
  let configHome := (← IO.getEnv "XDG_CONFIG_HOME").getD ".config"
  let cacheHome := (← IO.getEnv "XDG_CACHE_HOME").getD ".cache"
  let h := host configHome cacheHome
  let path := settingsPath h args
  let d ← readFile Disk.empty path
  let grammars := match Settings.loadOrStandard path d with
    | .ok s => grammarPaths h s
    | .error _ => []
  let before ← (codePaths args ++ grammars).foldlM readFile d
  let (after, ending) := h.serve args before
  grammars.forM (writeFile before after)
  IO.print ending.out
  IO.eprint ending.err
  return ending.code.toUInt32

end SymbolPaths.Program

/-- The entry of the program. -/
def main (args : List String) : IO UInt32 := SymbolPaths.Program.run args
