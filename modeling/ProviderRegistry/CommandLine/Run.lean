import ProviderRegistry.CommandLine.Switch
import ProviderRegistry.Round
import ProviderRegistry.Text.Markup

/-!
# The command line

What the program does for its arguments: it shows what it is asked to show, or
runs a round and shows what came of it. It ends with a number, which is zero if
all went well, one if errors were reported, and two if the arguments are wrong.
-/

namespace ProviderRegistry.CommandLine

open Symbols World

/-- What the arguments ask for. -/
structure Invocation where
  sources : List String := []
  modules : List String := []
  classOutput : Option String := none
  sourceOutput : Option String := none
  symbolModel : Option String := none
  listModels : Bool := false

/-! ## Checking values -/

/-- Whether a text names a directory by how it ends. -/
def endsInDirectory (value : String) : Bool := value.endsWith "/" || value.endsWith "/."

/-- Checks the value of a switch that must be a directory. -/
def checkDirectory (files : FileTree) (s : Switch) (value : String) : Except UsageError Unit :=
  match files.find? (.ofString value) with
  | .ok (some .directory) => if value.isEmpty then .error (.notThere s value) else .ok ()
  | .ok (some (.file _)) =>
    .error (if endsInDirectory value then .notThere s value else .isFile s value)
  | _ => .error (.notThere s value)

/-- The values of a switch, in order. -/
def Given.values (given : Given) (s : Switch) : List String :=
  (given.switches.filter (·.1 == s)).map (·.2)

/-- Checks the values of a switch. Of several symbol models the last counts. -/
def checkSwitch (files : FileTree) (given : Given) (s : Switch) : Except UsageError Unit :=
  match s with
  | .source => (given.values s).forM (checkDirectory files s)
  | .symbolModel =>
    match (given.values s).getLast? with
    | none => .ok ()
    | some value =>
      if (SymbolModel.Kind.words.lookup value).isSome then .ok () else .error (.noSuchModel s value)
  | _ => .ok ()

/-- Checks all values, in the order in which the switches are first given, and that
nothing else is given. -/
def checkGiven (files : FileTree) (given : Given) : Except UsageError Invocation := do
  ((given.switches.map (·.1)).eraseDups).forM (checkSwitch files given)
  unless given.extra.isEmpty do throw (.extra given.extra)
  return {
    sources := given.values .source
    modules := given.values .module
    classOutput := (given.values .classOutput).getLast?
    sourceOutput := (given.values .sourceOutput).getLast?
    symbolModel := (given.values .symbolModel).getLast?
    listModels := !(given.values .listModels).isEmpty }

/-! ## Texts -/

/-- How the program is called. -/
def usage : String := "Usage: main [OPTIONS]"

/-- What is shown when the arguments are wrong. -/
def usageLines (e : UsageError) : List String :=
  [usage, "Try 'main --help' for help.", "", "Error: " ++ e.message]

/-- What is shown for help. -/
def helpLines : List String := [
  usage,
  "",
  "  Service registry generator.",
  "",
  "  Finds classes marked with @service_provider, writes one META-INF/services",
  "  registry file per contract and generates factory modules for contracts that",
  "  asked for one.",
  "",
  "Options:",
  "  -s, --source DIRECTORY          Source root to scan (repeatable)",
  "  -m, --module TEXT               Module or package to import (import symbol",
  "                                  model only, repeatable)",
  "  --class-output TEXT             Root for META-INF/services (default: first",
  "                                  source root)",
  "  --source-output TEXT            Root for generated factory modules (default:",
  "                                  first source root)",
  "  --symbol-model [ast|static|import|reflection]",
  "                                  How candidates are discovered (default: ast)",
  "  --list-symbol-models            List available symbol models and exit",
  "  -v, --verbose                   Verbose output",
  "  --help                          Show this message and exit."]

/-- What is shown of the symbol models. -/
def modelLines : List String :=
  "Available symbol models:" :: "" ::
    SymbolModel.available.map fun (name, description) =>
      "  " ++ name ++ String.ofList (List.replicate (13 - name.length) ' ') ++ description

/-- What is shown before a round. -/
def banner : List String := ["Service Registry", "Registry file and factory generator"]

/-- What is shown of reports, each as it is made. -/
def reportLines (diagnostics : List Diagnostic) : List String :=
  diagnostics.flatMap fun d => d.display.splitOn "\n"

/-- The exception for a text whose tags do not match. -/
def markupFault : Raised := { kind := "MarkupError" }

/-- What a console shows of a text. -/
def shown (text : String) : Except Raised (List String) :=
  match Text.plain? text with
  | some plain => .ok ((Text.laidOut plain).splitOn "\n")
  | none => .error markupFault

/-- A row for a contract: its name, and its providers below each other. -/
def rowLines (entry : Registry.Entry) : Except Raised (List String) := do
  let name ← shown entry.contractName
  let providers ← shown ("\n".intercalate entry.implementations)
  let count := max name.length providers.length
  return (List.range count).map fun i => name.getD i "" ++ "  " ++ providers.getD i ""

/-- What is shown of the entries. -/
def entryLines (entries : List Registry.Entry) : Except Raised (List String) := do
  if entries.isEmpty then return ["No service providers found"]
  return "Registries" :: "Contract  Providers" :: (← entries.mapM rowLines).flatten

/-- What is shown of a list of paths, under a title: the lines, and the exception that
ended them. -/
def pathLines (title : String) (paths : List Path) : List String × Option Raised :=
  if paths.isEmpty then ([], none)
  else paths.foldl (fun (lines, failure) p =>
    match failure, shown ("  - " ++ p.text) with
    | none, .ok more => (lines ++ more, none)
    | none, .error e => (lines, some e)
    | some e, _ => (lines, some e)) (["", title], none)

/-! ## Running -/

/-- What a run of the program gives. -/
structure Outcome where
  exitCode : Nat
  lines : List String
  /-- The exception that ended the program. -/
  failure : Option Raised := none
  world : World

/-- Puts parts of an output together, up to the first that an exception ended. -/
def joinParts : List (List String × Option Raised) → List String × Option Raised
  | [] => ([], none)
  | (lines, some e) :: _ => (lines, some e)
  | (lines, none) :: rest =>
    let (more, failure) := joinParts rest
    (lines ++ more, failure)

/-- What is shown of a round. -/
def resultLines (r : RoundOutcome) : List String × Option Raised :=
  joinParts [
    match entryLines r.entries with
    | .ok lines => (lines, none)
    | .error e => ([], some e),
    pathLines "Registry files:" r.registryFiles,
    pathLines "Generated factories:" r.generatedSources,
    if r.hasErrors then (["", toString r.errors.length ++ " error(s)"], none) else ([], none)]

/-- Runs a round and shows what came of it. -/
def runRound (i : Invocation) (settings : Settings) (now : Factory.Moment) (world : World) :
    Outcome :=
  let request : RoundRequest := {
    sources := i.sources.map Path.ofString
    modules := i.modules
    classOutput := i.classOutput
    sourceOutput := i.sourceOutput
    symbolModel := i.symbolModel }
  let (result, world, reports) := request.run settings now world
  let before := banner ++ reportLines reports.diagnostics
  match result with
  | .error e => { exitCode := 1, lines := before, failure := some e, world }
  | .ok r =>
    let (lines, failure) := resultLines r
    let exitCode := if r.hasErrors || failure.isSome then 1 else 0
    { exitCode, lines := before ++ lines, failure, world }

/-- Does what the arguments ask for. -/
def perform (i : Invocation) (settings : Settings) (now : Factory.Moment) (world : World) :
    Outcome :=
  if i.listModels then { exitCode := 0, lines := modelLines, world }
  else if i.sources.isEmpty && i.modules.isEmpty then
    { exitCode := 1, lines := ["Error: --source or --module is required"], world }
  else runRound i settings now world

/-- Runs the program. -/
def run (arguments : List String) (settings : Settings) (now : Factory.Moment) (world : World) :
    Outcome :=
  match takeApart arguments {} with
  | .error e => { exitCode := 2, lines := usageLines e, world }
  | .ok given =>
    if !(given.values .help).isEmpty then { exitCode := 0, lines := helpLines, world }
    else match checkGiven world.files given with
      | .error e => { exitCode := 2, lines := usageLines e, world }
      | .ok i => perform i settings now world

end ProviderRegistry.CommandLine
