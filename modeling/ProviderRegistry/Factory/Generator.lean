import ProviderRegistry.Diagnostic
import ProviderRegistry.Factory.Source
import ProviderRegistry.Factory.Timestamp
import ProviderRegistry.Registry.Output

/-!
# Generating factories

One module for each contract that asked for one, written to an output. A
module that the output refuses is reported with its contract and left out.
-/

namespace ProviderRegistry.Factory

/-- What the generator records in its modules. -/
structure Generator where
  name : String
  date : String
  deriving Repr

namespace Generator

/-- A generator with its name, which an empty text leaves at its default. -/
def new (settings : Settings) (name : Option String) (now : Moment) : Generator where
  name := Settings.orDefault name settings.generatorName
  date := now.format settings.timestampFormat

/-- The factory module of a contract. -/
def source (g : Generator) (contract : Element) : Source :=
  .forContract contract g.name g.date

end Generator

/-- The output, the tree and the reports that generating works on. -/
structure Work where
  output : Registry.Output
  tree : FileTree
  reports : Reports

/-- The work with a report that the module of a contract could not be written. -/
def Work.refuse (out : Work) (contract : Element) (message : String) : Work :=
  { out with reports := out.reports.error ("Error generating factory class: " ++ message) contract }

/-- Writes the factory module of a contract: its path, or nothing when it could
not be written. Only what is neither a refusal of the output nor one of the
system ends the generating: a text that the encoding cannot write, an encoding
that there is none of, or a path that no system accepts. -/
def Generator.generate (g : Generator) (contract : Element) (out : Work) :
    Work × Except TextFileError (Option Path) :=
  let source := g.source contract
  match out.output.writeModule out.tree source.package source.moduleName source.render.toList with
  | (output, tree, result) =>
    let out : Work := { out with output, tree }
    match result with
    | .ok () => (out, .ok (some (output.modulePath source.package source.moduleName)))
    | .error (.recreated name) =>
      (out.refuse contract (Registry.OutputError.recreated name).message, .ok none)
    | .error (.text e) =>
      if e.isSystem then (out.refuse contract e.message, .ok none) else (out, .error e)

/-- Writes the factory modules of several contracts in turn: the paths of those
that were written. -/
def Generator.generateAll (g : Generator) : List Element → Work →
    Work × Except TextFileError (List Path)
  | [], out => (out, .ok [])
  | contract :: rest, out =>
    match g.generate contract out with
    | (out, .error e) => (out, .error e)
    | (out, .ok path) =>
      let (out, paths) := generateAll g rest out
      (out, paths.map (path.toList ++ ·))

end ProviderRegistry.Factory
