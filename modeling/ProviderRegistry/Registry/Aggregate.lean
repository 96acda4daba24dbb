import ProviderRegistry.Diagnostic
import ProviderRegistry.Registry.Entry
import ProviderRegistry.Registry.Output

/-!
# Aggregates

The providers of one round, grouped by contract in the order in which the
contracts were first met, and merged with the registry files that are there
already. What a round finds comes first; a file's lines follow, except those
listed before.
-/

namespace ProviderRegistry.Registry

/-- A class that was accepted as a provider of a contract. -/
structure Binding where
  contract : Element
  implementation : Element
  /-- Whether the provider asks for a factory. -/
  generateFactory : Bool := false

namespace Binding

/-- The name of the contract. -/
def key (b : Binding) : String := b.contract.qualifiedName

/-- The name that is registered for it. -/
def name (b : Binding) : String := b.implementation.qualifiedName

end Binding

/-- A contract that was met: its entry, and whether the provider that was met
first asked for a factory. -/
structure Aggregate.Group where
  contract : Element
  entry : Entry
  factoryRequested : Bool

/-- The contracts met so far, in order. -/
structure Aggregate where
  groups : List Aggregate.Group := []

namespace Aggregate

/-- The entries, in order. -/
def entries (a : Aggregate) : List Entry := a.groups.map (·.entry)

/-- The contracts whose factory is to be generated, in order. -/
def requests (a : Aggregate) : List Element :=
  (a.groups.filter (·.factoryRequested)).map (·.contract)

/-- The contract with the given name. -/
def contract? (a : Aggregate) (name : String) : Option Element :=
  (a.groups.find? (·.entry.contractName == name)).map (·.contract)

/-- Whether a contract has been met. -/
def contains (a : Aggregate) (name : String) : Bool := (a.contract? name).isSome

/-- Adds a provider to the group of its contract, if there is one. -/
def addTo (binding : Binding) : List Group → Option (List Group)
  | [] => none
  | g :: rest =>
    if g.entry.contractName = binding.key then
      some ({ g with entry := g.entry.add binding.name } :: rest)
    else (addTo binding rest).map (g :: ·)

/-- Adds a provider. The second outcome is the contract whose factory this
provider requests: it must be the first of its contract to request one. -/
def add (a : Aggregate) (binding : Binding) : Aggregate × Option Element :=
  match addTo binding a.groups with
  | some groups => (⟨groups⟩, none)
  | none =>
    let entry : Entry := { contractName := binding.key }
    let group : Group :=
      { contract := binding.contract
        entry := entry.add binding.name
        factoryRequested := binding.generateFactory }
    (⟨a.groups ++ [group]⟩, if binding.generateFactory then some binding.contract else none)

/-- The providers of a round, grouped. -/
def ofBindings (bindings : List Binding) : Aggregate :=
  bindings.foldl (fun a binding => (a.add binding).1) {}

end Aggregate

/-- The lines of a registry file, with nothing skipped. -/
def readLines (text : List Char) : List String := (Text.linesOf text).map String.ofList

namespace Aggregate

/-- The group with the lines of its registry file merged in. A file that does not
exist adds nothing; one that cannot be read adds nothing and is reported. -/
def mergeGroup (output : Output) (tree : FileTree) (g : Group) :
    Group × Except TextFileError (Option String) :=
  let resource := output.registryFile g.entry.contractName
  match output.readResource tree resource with
  | .ok text => ({ g with entry := g.entry.merge (readLines text) }, .ok none)
  | .error (.file ⟨.notFound, _⟩) => (g, .ok none)
  | .error e =>
    if e.isUnreadable then
      (g, .ok (some ("Could not read " ++ (output.resourcePath resource).text ++ ": " ++ e.message)))
    else (g, .error e)

/-- The groups with the lines of their registry files merged in, up to the first
that cannot be looked for: its path no system accepts, or there is no such encoding. -/
def mergeGroups (output : Output) (tree : FileTree) :
    List Group → Reports → List Group × Reports × Except TextFileError Unit
  | [], reports => ([], reports, .ok ())
  | g :: rest, reports =>
    match mergeGroup output tree g with
    | (g, .error e) => (g :: rest, reports, .error e)
    | (g, .ok report) =>
      let merged := mergeGroups output tree rest (reports.errors report.toList)
      (g :: merged.1, merged.2)

/-- Merges the registry files that are there already. -/
def mergeFiles (a : Aggregate) (output : Output) (tree : FileTree) (reports : Reports) :
    Aggregate × Reports × Except TextFileError Unit :=
  let (groups, reports, result) := mergeGroups output tree a.groups reports
  (⟨groups⟩, reports, result)

end Aggregate

/-- Writes the registry files of the entries that are not empty: the paths that
were written, in order. A file that the system refuses is reported and left
out; a name that the encoding cannot write ends the writing, and so does a path
that no system accepts. -/
def writeEntries (output : Output) : List Entry → FileTree → Reports →
    FileTree × Reports × Except TextFileError (List Path)
  | [], tree, reports => (tree, reports, .ok [])
  | entry :: rest, tree, reports =>
    if entry.implementations.isEmpty then writeEntries output rest tree reports
    else
      let resource := output.registryFile entry.contractName
      match output.writeResource tree resource entry.render with
      | (tree, .ok ()) =>
        let (tree, reports, paths) := writeEntries output rest tree reports
        (tree, reports, paths.map (output.resourcePath resource :: ·))
      | (tree, .error e) =>
        if e.isSystem then
          writeEntries output rest tree (reports.error
            ("Could not write " ++ (output.resourcePath resource).text ++ ": " ++ e.message))
        else (tree, reports, .error e)

end ProviderRegistry.Registry
