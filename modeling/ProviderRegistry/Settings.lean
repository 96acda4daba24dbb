import ProviderRegistry.Naming
import ProviderRegistry.Path

/-!
# Settings

What can be configured, with the values that hold when nothing is.
-/

namespace ProviderRegistry

/-- The settings of the generator. -/
structure Settings where
  /-- The qualified names of the markers that make a class a provider. -/
  markerNames : List String := ["services.service_provider", "services.markers.service_provider"]
  /-- The name of the symbol model that finds the candidates. -/
  symbolModel : String := "ast"
  /-- The directories that a scan does not enter. -/
  ignoreDirs : List String :=
    [".git", "__pycache__", ".venv", "venv", "node_modules", "dist", "build", ".pytest_cache",
      ".mypy_cache", ".tox"]
  /-- The directory of registry files, below the class output. -/
  servicesDir : String := Naming.servicesDir
  classOutputDir : Option String := none
  sourceOutputDir : Option String := none
  encoding : String := "utf-8"
  /-- The name that generated modules carry. -/
  generatorName : String := "processor.ServiceProviderProcessor"
  timestampFormat : String := "%Y-%m-%dT%H:%M:%S%z"
  deriving Repr

namespace Settings

/-- A text, unless it is empty. -/
def orDefault (given : Option String) (default : String) : String :=
  match given with
  | some s => if s.isEmpty then default else s
  | none => default

/-- An output directory: the configured one, else the given default, else the
working directory. -/
def outputPath (configured : Option String) (default : Option Path) (home : Path) : Path :=
  match configured with
  | some s => if s.isEmpty then default.getD home else Path.ofString s
  | none => default.getD home

/-- The root of registry files. -/
def classOutput (s : Settings) (default : Option Path) (home : Path) : Path :=
  outputPath s.classOutputDir default home

/-- The root of generated modules. -/
def sourceOutput (s : Settings) (default : Option Path) (home : Path) : Path :=
  outputPath s.sourceOutputDir default home

end Settings

end ProviderRegistry
