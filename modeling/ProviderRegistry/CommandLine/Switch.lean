import ProviderRegistry.Symbols.Model
import ProviderRegistry.Text.Similar

/-!
# Switches

The arguments of the command line: switches, some with a value, and nothing
else. A value follows its switch or is attached to it. All arguments are taken
apart before any value is looked at.
-/

namespace ProviderRegistry.CommandLine

/-- A switch. -/
inductive Switch where
  | source
  | module
  | classOutput
  | sourceOutput
  | symbolModel
  | listModels
  | verbose
  | help
  deriving DecidableEq, Repr

namespace Switch

/-- All switches. -/
def all : List Switch :=
  [source, module, classOutput, sourceOutput, symbolModel, listModels, verbose, help]

/-- The spellings of a switch, the long one first. -/
def spellings : Switch → List String
  | source => ["--source", "-s"]
  | module => ["--module", "-m"]
  | classOutput => ["--class-output"]
  | sourceOutput => ["--source-output"]
  | symbolModel => ["--symbol-model"]
  | listModels => ["--list-symbol-models"]
  | verbose => ["--verbose", "-v"]
  | help => ["--help"]

/-- Whether a switch has a value. -/
def takesValue : Switch → Bool
  | listModels | verbose | help => false
  | _ => true

/-- The switch with a spelling. -/
def ofSpelling? (spelling : String) : Option Switch := all.find? (·.spellings.contains spelling)

/-- The long spellings of all switches. -/
def longSpellings : List String := (all.flatMap spellings).filter (·.startsWith "--")

/-- The spellings of a switch as messages show them. -/
def hint (s : Switch) : String := " / ".intercalate (s.spellings.map Text.quote)

end Switch

/-- What is wrong with the arguments. -/
inductive UsageError where
  /-- There is no such switch, but there are similar ones. -/
  | noSuchSwitch (name : String) (similar : List String)
  | missingValue (name : String)
  | unexpectedValue (name : String)
  | notThere (s : Switch) (value : String)
  | isFile (s : Switch) (value : String)
  | noSuchModel (s : Switch) (value : String)
  /-- There are arguments that belong to no switch. -/
  | extra (arguments : List String)
  deriving DecidableEq, Repr

namespace UsageError

/-- The part of a message that names similar switches. -/
def suggestion : List String → String
  | [] => ""
  | [name] => " Did you mean " ++ Text.quote name ++ "?"
  | names => " (Did you mean one of: " ++ ", ".intercalate (names.map Text.quote) ++ "?)"

/-- The message about an error. -/
def message : UsageError → String
  | noSuchSwitch name similar => "No such option " ++ Text.quote name ++ "." ++ suggestion similar
  | missingValue name => "Option " ++ Text.quote name ++ " requires an argument."
  | unexpectedValue name => "Option " ++ Text.quote name ++ " does not take a value."
  | notThere s value =>
    "Invalid value for " ++ s.hint ++ ": Directory " ++ Text.quote value ++ " does not exist."
  | isFile s value =>
    "Invalid value for " ++ s.hint ++ ": Directory " ++ Text.quote value ++ " is a file."
  | noSuchModel s value =>
    "Invalid value for " ++ s.hint ++ ": " ++ Text.quote value ++ " is not one of " ++
      ", ".intercalate (Symbols.SymbolModel.Kind.words.map fun (w, _) => Text.quote w) ++ "."
  | extra arguments =>
    "Got unexpected extra argument" ++ (if arguments.length = 1 then "" else "s") ++ " (" ++
      " ".intercalate arguments ++ ")"

end UsageError

/-- The switches that are given, in order and with their values, and what else is. -/
structure Given where
  switches : List (Switch × String) := []
  extra : List String := []

/-- What an argument says: switches with their values, and perhaps one whose value
follows, with its spelling. -/
structure Reading where
  switches : List (Switch × String) := []
  awaiting : Option (Switch × String) := none

/-- Reads an argument that starts with two dashes. A value may follow an equals sign. -/
def readLong (argument : List Char) : Except UsageError Reading :=
  let name := String.ofList (argument.takeWhile (· != '='))
  match Switch.ofSpelling? name, argument.drop name.length with
  | none, _ => .error (.noSuchSwitch name (Text.similarWords name Switch.longSpellings))
  | some s, _ :: value =>
    if s.takesValue then .ok { switches := [(s, String.ofList value)] }
    else .error (.unexpectedValue name)
  | some s, [] =>
    if s.takesValue then .ok { awaiting := some (s, name) } else .ok { switches := [(s, "")] }

/-- Reads the letters after a single dash. What follows one that has a value is its
value. -/
def readLetters : List Char → Except UsageError Reading
  | [] => .ok {}
  | c :: rest =>
    let name := String.ofList ['-', c]
    match Switch.ofSpelling? name with
    | none => .error (.noSuchSwitch name [])
    | some s =>
      if s.takesValue then
        if rest.isEmpty then .ok { awaiting := some (s, name) }
        else .ok { switches := [(s, String.ofList rest)] }
      else (readLetters rest).map fun r => { r with switches := (s, "") :: r.switches }

/-- Reads an argument: nothing if it is no switch. -/
def readArgument (argument : String) : Except UsageError (Option Reading) :=
  match argument.toList with
  | '-' :: '-' :: rest => (readLong ('-' :: '-' :: rest)).map some
  | '-' :: c :: rest => (readLetters (c :: rest)).map some
  | _ => .ok none

/-- Takes arguments apart. Two dashes end the switches. -/
def takeApart : List String → Given → Except UsageError Given
  | [], given => .ok given
  | argument :: rest, given =>
    if argument = "--" then .ok { given with extra := given.extra ++ rest }
    else match readArgument argument with
      | .error e => .error e
      | .ok none => takeApart rest { given with extra := given.extra ++ [argument] }
      | .ok (some reading) =>
        let switches := given.switches ++ reading.switches
        match reading.awaiting with
        | none => takeApart rest { given with switches }
        | some (s, name) =>
          match rest with
          | [] => .error (.missingValue name)
          | value :: more => takeApart more { given with switches := switches ++ [(s, value)] }

end ProviderRegistry.CommandLine
