import ProviderRegistry.Naming
import ProviderRegistry.Registry.Line
import ProviderRegistry.World.Instance
import ProviderRegistry.World.Resources

/-!
# Service loaders

A loader reads the registry files of one contract and makes an instance of
every provider that they name, one after another and only as far as it is
asked to. What it has made it keeps, until it is told to start anew. An error
in a registry file or with the class of a provider ends the names; an error
with an instance does not, so that the next attempt goes on with the provider
after it. Iterations share what the loader has made: each is a `Cursor` that
says how far it has come.
-/

namespace ProviderRegistry.World

/-- A loader of the providers of a contract. -/
structure ServiceLoader where
  service : Object
  resources : ResourceLoader
  servicesDir : String := Naming.servicesDir
  /-- The instances made so far. -/
  instances : List Object := []
  /-- The names that are left, once the registry files have been read. -/
  pending : Option (List String) := none

namespace ServiceLoader

/-- An exception of the service runtime, about the contract of a loader. -/
def fault (loader : ServiceLoader) (text : String) : Run Raised := do
  return { kind := "ServiceConfigurationError"
           message := (← qualifiedNameOf loader.service) ++ ": " ++ text }

/-- The names on the lines of a registry file that are not among `names` yet, after
those. -/
def addNames (path : Path) : (lineNumber : Nat) → List (List Char) → List String →
    Except Registry.IllegalName (List String)
  | _, [], names => .ok names
  | n, line :: rest, names =>
    match Registry.parseLine path n line with
    | .error e => .error e
    | .ok none => addNames path (n + 1) rest names
    | .ok (some name) =>
      addNames path (n + 1) rest (if names.contains name then names else names ++ [name])

/-- The names in registry files, after those before. -/
def namesIn (loader : ServiceLoader) (names : List String) (path : Path) : Run (List String) := do
  let w ← Run.world
  match w.files.readText path "utf-8" with
  | .error e => throw ((← loader.fault ("Error reading " ++ path.text)).causedBy (.ofTextFile e))
  | .ok text =>
    match addNames path 1 (Text.splitLines text) names with
    | .error e => throw { kind := "ServiceConfigurationError", message := e.message }
    | .ok names => return names

/-- The names of the providers, in order and each once. -/
def providerNames (loader : ServiceLoader) : Run (List String) := do
  let resource := Naming.registryFile (← qualifiedNameOf loader.service) loader.servicesDir
  (← loader.resources.resources resource).foldlM loader.namesIn []

/-- Whether an object is a class that is a subtype of the contract. -/
def isProvider (loader : ServiceLoader) (o : Object) : Run Bool := do
  match o, loader.service with
  | .type id, .type contract => return (← Run.world).classes.isSubtype id contract
  | _, _ => return false

/-- The class of a provider. -/
def providerClass (importer : Importer) (loader : ServiceLoader) (name : String) : Run Object := do
  match ← (resolveName importer name).outcome with
  | .error e =>
    if e.isA "ImportError" || e.isA "AttributeError" || e.isA "ValueError" then
      throw ((← loader.fault ("Provider " ++ name ++ " not found")).causedBy e)
    else throw e
  | .ok o =>
    if ← loader.isProvider o then return o
    else throw (← loader.fault ("Provider " ++ name ++ " not a subtype"))

/-- Makes an instance of a provider. -/
def makeInstance (loader : ServiceLoader) (provider : Object) : Run Object := do
  match provider with
  | .type id =>
    match ← (instantiate id).outcome with
    | .ok o => return o
    | .error e =>
      if e.isA "Exception" then
        let name ← qualifiedNameOf provider
        throw ((← loader.fault ("Provider " ++ name ++ " could not be instantiated")).causedBy e)
      else throw e
  | _ => Run.raise "TypeError" "not a class"

end ServiceLoader

/-- A computation that also changes a loader. -/
abbrev Loading := ExceptT Raised (StateT ServiceLoader (StateM World))

namespace Loading

/-- Runs a computation that leaves the loader alone. -/
def ofRun (action : ServiceLoader → Run α) : Loading α := fun loader w =>
  let (result, w) := (action loader).run w
  ((result, loader), w)

/-- Reads the registry files, unless that has been done. -/
def start : Loading Unit := do
  if (← get).pending.isNone then
    modify fun loader => { loader with pending := some [] }
    let names ← ofRun (·.providerNames)
    modify fun loader => { loader with pending := some names }

/-- Makes an instance of the next provider, if there is one. While the class of a
provider is looked up, no names are left. -/
def makeNext (importer : Importer) : Loading (Option Object) := do
  match (← get).pending.getD [] with
  | [] => return none
  | name :: rest =>
    modify fun loader => { loader with pending := some [] }
    let provider ← ofRun (·.providerClass importer name)
    modify fun loader => { loader with pending := some rest }
    let made ← ofRun (·.makeInstance provider)
    modify fun loader => { loader with instances := loader.instances ++ [made] }
    return some made

/-- Makes the instance of one more provider: whether there was one. -/
def advance (importer : Importer) : Loading Bool := do
  start
  return (← makeNext importer).isSome

/-- Starts anew. -/
def reload : Loading Unit := modify fun loader => { loader with instances := [], pending := none }

end Loading

/-! ## Iterations -/

/-- Where an iteration over a loader stands. Any number of them share the instances that
the loader keeps. -/
structure Cursor where
  /-- The place of the instance that comes next. -/
  position : Nat := 0
  /-- Whether the iteration has ended, with or without an exception. -/
  isOver : Bool := false
  deriving DecidableEq, Repr

namespace Cursor

/-- A computation of an iteration, which changes the loader. -/
abbrev Stepping := StateT ServiceLoader (StateM World)

/-- An iteration that has ended. -/
def ended (c : Cursor) : Cursor := { c with isOver := true }

/-- The exception for a place that has no instance. Only a loader that started anew
during an iteration can lack one. -/
def noInstance : Raised := { kind := "IndexError", message := "list index out of range" }

/-- The instance at the place where an iteration stands, which is there unless the loader
has started anew. -/
def give (c : Cursor) : Stepping (Except Raised (Option Object) × Cursor) := do
  match (← get).instances[c.position]? with
  | some o => return (.ok (some o), { c with position := c.position + 1 })
  | none => return (.error noInstance, c.ended)

/-- The next instance of an iteration, which is made if the loader does not have it yet;
nothing if there is no further provider. -/
def next (importer : Importer) (c : Cursor) :
    Stepping (Except Raised (Option Object) × Cursor) := do
  if c.isOver then return (.ok none, c)
  else if c.position < (← get).instances.length then c.give
  else match ← (Loading.advance importer).run with
    | .error e => return (.error e, c.ended)
    | .ok false => return (.ok none, c.ended)
    | .ok true => c.give

/-- Up to `steps` further instances of an iteration, and the exception that ended it. -/
def take (importer : Importer) : (steps : Nat) → Cursor → Stepping (List Object × Option Raised)
  | 0, _ => return ([], none)
  | steps + 1, c => do
    match ← c.next importer with
    | (.error e, _) => return ([], some e)
    | (.ok none, _) => return ([], none)
    | (.ok (some o), c) =>
      let (more, e) ← take importer steps c
      return (o :: more, e)

end Cursor

/-- How many steps an iteration has at most: one for each provider, and one to end. -/
def ServiceLoader.iterationSteps (loader : ServiceLoader) : Nat :=
  loader.instances.length + (loader.pending.getD []).length + 1

namespace Loading

/-- The first instance, if there is one. -/
def first (importer : Importer) : Loading (Option Object) := fun loader w =>
  let (((result, _), loader), w) := (Cursor.next importer {} loader) w
  ((result, loader), w)

/-- The instances in order, and the exception that ended the iteration. A limit is looked
at after every instance, so that at least one is given. -/
def iterate (importer : Importer) (limit : Option Nat) :
    Cursor.Stepping (List Object × Option Raised) := do
  match ← start.run with
  | .error e => return ([], some e)
  | .ok () => Cursor.take importer ((limit.map (max 1 ·)).getD (← get).iterationSteps) {}

end Loading

/-- Does something for every item in turn, until an exception ends it: the results so
far, and the exception. -/
def gather (f : α → Run β) : List α → Run (List β × Option Raised)
  | [] => return ([], none)
  | a :: rest => do
    match ← (f a).outcome with
    | .error e => return ([], some e)
    | .ok b =>
      let (results, e) ← gather f rest
      return (b :: results, e)

namespace ServiceLoader

/-- Runs a computation with a loader that nothing else sees. -/
def use (loader : ServiceLoader) (action : Loading α) : Run α := fun w =>
  let ((result, _), w) := (action.run loader) w
  (result, w)

/-- The classes of the providers in order, each handed to `f` as soon as it is found:
what that gives, and the exception that ended it. -/
def stream (importer : Importer) (loader : ServiceLoader) (f : Object → Run β) :
    Run (List β × Option Raised) := do
  match ← loader.providerNames.outcome with
  | .error e => return ([], some e)
  | .ok names => gather (fun name => do f (← loader.providerClass importer name)) names

/-- A loader as text. -/
def display (loader : ServiceLoader) : Run String := do
  return "ServiceLoader[" ++ (← qualifiedNameOf loader.service) ++ "]"

/-- A provider as text. -/
def displayProvider (provider : Object) : Run String := do
  return "Provider(" ++ (← qualifiedNameOf provider) ++ ")"

end ServiceLoader

end ProviderRegistry.World
