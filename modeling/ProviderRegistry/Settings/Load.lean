import ProviderRegistry.Datum.Json
import ProviderRegistry.FileTree
import ProviderRegistry.Settings
import ProviderRegistry.Settings.EnvFile
import ProviderRegistry.Text.Lowercase

/-!
# Settings from variables

Settings are taken from the variables of the environment and from those of a
file in the working directory, the environment first. A variable is found
whichever case its name is in. Lists are written as JSON.
-/

namespace ProviderRegistry.Settings

/-- Why settings could not be loaded. -/
inductive LoadError where
  /-- The file of variables cannot be read. -/
  | unreadable (error : TextFileError)
  /-- The list of a field is not written as JSON. -/
  | malformed (field : String)
  | invalid (violations : List Violation)

/-- The variables that settings are taken from, by lower-case name. -/
abbrev Variables := Table String String

/-- What the names of the variables start with. -/
def variablePrefix : String := "service_registry_"

/-- The usual name of the variable of a field. -/
def variableName (field : String) : String := (variablePrefix ++ field).toUpper

/-- The file of variables, in the working directory. -/
def variableFile : Path := .ofString ".env"

/-- Variables by lower-case name; of several the last counts. Those without a value
count for nothing. -/
def lowerNames (given : Table String (Option String)) : Variables :=
  (given.foldl (fun table (name, value) =>
    Table.set (String.ofList (Text.lower name.toList)) value table) []).filterMap
      fun (name, value) => value.map (name, ·)

/-- The variable of a field. -/
def valueOf? (given : Variables) (field : String) : Option String :=
  given.lookup (variablePrefix ++ field)

/-- The fields that are single texts. -/
def textFields : List String :=
  ["symbol_model", "services_dir", "class_output_dir", "source_output_dir", "encoding",
    "generator_name", "timestamp_format"]

/-- The fields that are lists. -/
def listFields : List String := ["marker_names", "ignore_dirs"]

/-- The data of the fields that are lists, as far as variables give them. -/
def listsIn (given : Variables) : Except LoadError (List (String × Datum)) :=
  listFields.foldlM (fun lists field =>
    match valueOf? given field with
    | none => .ok lists
    | some text => match Datum.ofJson? text.toList with
      | none => .error (.malformed field)
      | some .null => .ok lists
      | some d => .ok (lists ++ [(field, d)])) []

/-- A list of texts, as the data of a field give it. -/
def listOr (lists : List (String × Datum)) (field : String) (default : List String) :
    Checked (List String) :=
  match lists.lookup field with
  | none => .ok default
  | some d => d.checkList [field] Datum.checkString

/-- The settings from data for the lists and variables for the other fields. -/
def assemble (lists : List (String × Datum)) (text? : String → Option String) :
    Checked Settings :=
  let default : Settings := {}
  (Checked.both (listOr lists "marker_names" default.markerNames)
    (listOr lists "ignore_dirs" default.ignoreDirs)).map fun (markerNames, ignoreDirs) =>
      let text (field : String) (value : String) : String := (text? field).getD value
      { markerNames
        ignoreDirs
        symbolModel := text "symbol_model" default.symbolModel
        servicesDir := text "services_dir" default.servicesDir
        classOutputDir := text? "class_output_dir"
        sourceOutputDir := text? "source_output_dir"
        encoding := text "encoding" default.encoding
        generatorName := text "generator_name" default.generatorName
        timestampFormat := text "timestamp_format" default.timestampFormat }

/-- The settings from the variables of the environment and of a file. -/
def ofVariables (environment file : Variables) : Except LoadError Settings := do
  let first ← listsIn environment
  let second ← listsIn file
  let text? (field : String) : Option String :=
    (valueOf? environment field).or (valueOf? file field)
  (assemble (first ++ second) text?).mapError .invalid

/-- The variables of the file in the working directory, if it is there. -/
def fileVariables (tree : FileTree) (environment : Table String String) :
    Except LoadError Variables :=
  match tree.isFile variableFile with
  | .ok true => match tree.readText variableFile "utf-8" with
    | .error e => .error (.unreadable e)
    | .ok text => .ok (lowerNames (EnvFile.assignments environment text))
  | _ => .ok []

/-- The settings that hold in an environment and a working directory. -/
def load (tree : FileTree) (environment : Table String String) : Except LoadError Settings := do
  let file ← fileVariables tree environment
  ofVariables (lowerNames (environment.map fun (name, value) => (name, some value))) file

end ProviderRegistry.Settings
