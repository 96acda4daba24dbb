import Std.Time.Zoned
import ProviderRegistry.CommandLine.Run
import ProviderRegistry.Settings.Load

/-!
# The program

The command line on the files of a machine. All that a run can look at is read
first, the run itself is a function of that, and what it changed is written
afterwards. Modules are only imported if they are generated factories: running
other programs is not the business of this one.
-/

namespace ProviderRegistry.Program

/-- The moment that the clock shows, in the zone of the machine. -/
def now : IO Factory.Moment := do
  let t ← Std.Time.DateTime.now
  return {
    year := t.year.toInt.toNat
    month := t.month.val.toNat
    day := t.day.val.toNat
    hour := t.hour.val.toNat
    minute := t.minute.val.toNat
    second := t.second.val.toNat
    offset := some t.timezone.offset.second.val }

/-- The variables of the environment that settings are taken from. -/
def environment : IO (Table String String) :=
  (Settings.textFields ++ Settings.listFields).filterMapM fun field => do
    let name := Settings.variableName field
    return (← IO.getEnv name).map (name, ·)

/-- Adds entries of a directory and all below them, without the directories of some
names. Links to directories are not followed, and what cannot be read is left out. -/
partial def addEntries (skipped : List String) (l : Location) (tree : FileTree)
    (entries : Array IO.FS.DirEntry) : IO FileTree :=
  entries.foldlM (fun tree entry => do
    let l := l ++ [entry.fileName]
    try
      let link := (← entry.path.symlinkMetadata).type == .symlink
      if ← entry.path.isDir then
        if link || skipped.contains entry.fileName then return tree
        addEntries skipped l (tree.place l .directory) (← entry.path.readDir)
      else
        return tree.place l (.file (← IO.FS.readBinFile entry.path).toList)
    catch _ => return tree) tree

/-- Adds what stands at a path. -/
def addPath (skipped : List String) (tree : FileTree) (path : String) : IO FileTree := do
  try
    let real ← IO.FS.realPath path
    let l := tree.reach (.ofString path)
    if ← real.isDir then addEntries skipped l (tree.place l .directory) (← real.readDir)
    else return tree.place l (.file (← IO.FS.readBinFile real).toList)
  catch _ => return tree

/-- Writes what a run changed. -/
def writeUpdates (before after : FileTree) : IO Unit :=
  (before.updates after).forM fun (l, node) =>
    let path := "/" ++ "/".intercalate l
    match node with
    | .directory => IO.FS.createDirAll path
    | .file content => IO.FS.writeBinFile path ⟨content.toArray⟩

/-- Runs the program in a directory. -/
def run (arguments : List String) (home : Location) : IO UInt32 := do
  let start ← addPath [] (.empty home) Settings.variableFile.text
  match Settings.load start (← environment) with
  | .error _ =>
    IO.eprintln "Error: the settings cannot be loaded"
    return 1
  | .ok settings =>
    let named := match CommandLine.takeApart arguments {} with
      | .ok given => given.switches.map (·.2)
      | .error _ => []
    let outputs := [settings.classOutputDir, settings.sourceOutputDir].filterMap id
    let files ← ("." :: named ++ outputs).foldlM (addPath settings.ignoreDirs) start
    let outcome := CommandLine.run arguments settings (← now) (.new files [.ofString "."])
    outcome.lines.forM fun line => IO.println line
    writeUpdates files outcome.world.files
    if let some e := outcome.failure then IO.eprintln (e.kind ++ ": " ++ e.message)
    return outcome.exitCode.toUInt32

end ProviderRegistry.Program

/-- Runs the program in the working directory. -/
def main (arguments : List String) : IO UInt32 := do
  ProviderRegistry.Program.run arguments
    (ProviderRegistry.Path.ofString (← IO.currentDir).toString).parts
