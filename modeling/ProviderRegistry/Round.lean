import ProviderRegistry.Factory.Generator
import ProviderRegistry.Resolution

/-!
# Rounds

One run of the generator: the marked classes of a symbol model are resolved to
their contracts, grouped and merged with the registry files that are there,
and written back; then the factories that were asked for are generated. A round
without marked classes does nothing.
-/

namespace ProviderRegistry

open Symbols World

/-- What a round gives. -/
structure RoundOutcome where
  entries : List Registry.Entry := []
  /-- The contracts whose factory was asked for. -/
  requests : List Element := []
  registryFiles : List Path := []
  generatedSources : List Path := []
  diagnostics : List Diagnostic := []

namespace RoundOutcome

/-- The errors among the reports of a round. -/
def errors (r : RoundOutcome) : List Diagnostic := r.diagnostics.filter (·.isError)

/-- Whether a round reported an error. -/
def hasErrors (r : RoundOutcome) : Bool := !r.errors.isEmpty

/-- The entry of a contract. -/
def entry? (r : RoundOutcome) (contractName : String) : Option Registry.Entry :=
  r.entries.find? (·.contractName == contractName)

/-- The text for a contract that has no entry. -/
def missingEntry (contractName : String) : String := "No registry entry for " ++ contractName

/-- A result from the data of its entries and reports. -/
def check (entries : List (Datum × Datum)) (diagnostics : List (Checked Diagnostic)) :
    Checked RoundOutcome :=
  (Checked.both (Checked.all (entries.map fun (name, implementations) =>
    Registry.Entry.check name implementations)) (Checked.all diagnostics)).map
      fun (entries, diagnostics) => { entries, diagnostics }

end RoundOutcome

/-- What does the rounds: which markers it looks for and what it generates factories
with. -/
structure Processor where
  markers : List String
  generator : Factory.Generator

/-- A part of a round: it asks questions to a symbol model and writes to an output,
which remembers the modules it has created. -/
abbrev Rounding := ExceptT Raised (StateT Registry.Output (StateM Session))

namespace Rounding

/-- Asks a question. -/
def ofQuery (query : Query α) : Rounding α := fun output session =>
  let (result, session) := query.run session
  ((result, output), session)

/-- Runs a step that works on the files and the reports, and may fail. -/
def step (action : Factory.Work → Factory.Work × Except TextFileError α) : Rounding α :=
  fun output session =>
    let (out, result) := action ⟨output, session.world.files, session.reports⟩
    ((result.mapError Raised.ofTextFile, out.output),
      { session with world := { session.world with files := out.tree }, reports := out.reports })

end Rounding

namespace Processor

/-- A processor with the default generator. -/
def new (settings : Settings) (now : Factory.Moment) (markers : List String := [])
    (generatorName : Option String := none) : Processor where
  markers := Resolution.markersOr settings markers
  generator := .new settings generatorName now

/-- The markers that a processor looks for, each once. -/
def supported (p : Processor) : List String := p.markers.eraseDups

/-- Merges the registry files that are there into an aggregate. -/
def mergeFiles (a : Registry.Aggregate) : Rounding Registry.Aggregate :=
  Rounding.step fun out =>
    let (merged, reports, result) := a.mergeFiles out.output out.tree out.reports
    ({ out with reports }, result.map fun () => merged)

/-- Writes the registry files of some entries. -/
def writeEntries (entries : List Registry.Entry) : Rounding (List Path) :=
  Rounding.step fun out =>
    let (tree, reports, result) := Registry.writeEntries out.output entries out.tree out.reports
    ({ out with tree, reports }, result)

/-- Runs a round over the classes that carry a marker. -/
def processMarked (p : Processor) (marked : List Element) : Rounding RoundOutcome := do
  let bindings ← Rounding.ofQuery (Resolution.bindingsOf p.markers marked)
  let aggregate ← mergeFiles (.ofBindings bindings)
  let registryFiles ← writeEntries aggregate.entries
  let generatedSources ← Rounding.step (p.generator.generateAll aggregate.requests)
  return {
    entries := aggregate.entries
    requests := aggregate.requests
    registryFiles, generatedSources }

/-- Runs a round: what it gives, with the reports made during it. -/
def process (p : Processor) : Rounding RoundOutcome := do
  let made : Rounding (List Diagnostic) :=
    Rounding.ofQuery (return (← get).reports.diagnostics)
  let before ← made
  let marked ← Rounding.ofQuery (Query.annotated p.markers)
  let result ← if marked.isEmpty then pure {} else p.processMarked marked
  return { result with diagnostics := (← made).drop before.length }

end Processor

/-! ## Rounds over sources -/

/-- What a round over source roots is asked to do. -/
structure RoundRequest where
  sources : List Path := []
  modules : List String := []
  classOutput : Option String := none
  sourceOutput : Option String := none
  symbolModel : Option String := none

namespace RoundRequest

/-- The output of a round: the given roots, else those of the settings, else the first
source root. -/
def output (request : RoundRequest) (settings : Settings) (home : Path) : Registry.Output :=
  let root := request.sources.head?
  let given (text : Option String) : Option Path :=
    (text.filter (!·.isEmpty)).map Path.ofString
  .new settings ((given request.classOutput).getD (settings.classOutput root home))
    ((given request.sourceOutput).getD (settings.sourceOutput root home))

/-- Runs a round over source roots or modules. -/
def run (request : RoundRequest) (settings : Settings) (now : Factory.Moment) (world : World)
    (reports : Reports := {}) : Except Raised RoundOutcome × World × Reports :=
  match SymbolModel.Kind.choose settings request.symbolModel with
  | .error e => (.error e, world, reports)
  | .ok kind =>
    let home : Path := ⟨.single, world.files.home⟩
    let model := SymbolModel.create settings kind request.sources request.modules
    let ((result, _), session) :=
      ((Processor.new settings now).process.run (request.output settings home)).run
        ⟨model, world, reports⟩
    (result, session.world, session.reports)

end RoundRequest

end ProviderRegistry
