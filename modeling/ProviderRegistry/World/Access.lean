import ProviderRegistry.World.Import

/-!
# Access through factories

Getting an instance of a contract from its generated factory: the module of a
fixed name in the contract's package, the class of a fixed name in it, and its
static accessor. Whatever goes wrong on the way becomes the cause of one
exception.
-/

namespace ProviderRegistry.World

/-- The package of a contract: its module if that is a package, else the package
around its module. -/
def packageOf (contract : Object) : Run String := do
  let module ← textAttribute contract "__module__"
  return if (← Run.world).isPackage module then module else (Naming.splitModule module).1

/-- Runs an accessor of a class in some module. -/
def runAccessor (importer : Importer) (module : String) : AccessorOutcome → Run Object
  | .nothing => return .literal .none
  | .raises kind => Run.raise kind ""
  | .makes r => do
    match ← resolve importer ⟨module, []⟩ r with
    | .type id => instantiate id
    | _ => Run.raise "TypeError" "not a class"

/-- Calls the accessor of a factory, which must be a static one. -/
def callAccessor (importer : Importer) (factory : Object) : Run Object := do
  let w ← Run.world
  match factory with
  | .type id =>
    match w.classes.definition? id Naming.accessorName with
    | none => Run.raise "AttributeError" Naming.accessorName
    | some (_, .keeper o) => return o
    | some (owner, .accessor .static outcome) =>
      runAccessor importer (((w.class? owner).map (·.module)).getD "") outcome
    | some _ => Run.raise "TypeError" "the accessor is not a static method"
  | _ => Run.raise "AttributeError" Naming.accessorName

/-- Whether an object is an instance of a contract. -/
def isInstance (w : World) (o contract : Object) : Bool :=
  match classOf? w o, contract with
  | some id, .type target => w.classes.isSubtype id target
  | _, _ => false

/-- What the factory of a contract in a module gives: nothing, or an instance of the
contract. -/
def fromFactory (importer : Importer) (module name : String) (contract : Object) : Run Object := do
  importer module
  let factory ← getAttribute (.module module) (Naming.factoryClass name)
  let o ← callAccessor importer factory
  if o = .literal .none || isInstance (← Run.world) o contract then return o
  else Run.raise "TypeError" "not an instance of the contract"

/-- An instance of a contract from its factory. -/
def accessInstance (importer : Importer) (contract : Object) : Run Object := do
  let package ← packageOf contract
  let name ← textAttribute contract "__name__"
  let module := Naming.factoryModuleIn package name
  match ← (fromFactory importer module name contract).outcome with
  | .ok o => return o
  | .error e =>
    if e.isA "Exception" then
      let refusal : Raised := {
        kind := "ServiceFactoryError"
        message := "Could not find or invoke factory method " ++ Naming.accessorName ++ "() on " ++
          module }
      throw (refusal.causedBy e)
    else throw e

/-- Whether a class is a subtype of another object, which it can be only of a class. -/
def isSubtypeOf (o contract : Object) : Run Bool := do
  match o, contract with
  | .type id, .type target => return (← Run.world).classes.isSubtype id target
  | .type _, _ => return false
  | _, _ => Run.raise "AttributeError" "not a class"

/-- The marker on a class itself. Constants have no names at all. -/
def markerOn (o : Object) : Run (Option Marker) := do
  match o with
  | .type id => return ((← Run.world).class? id).bind (·.marker)
  | .literal _ => Run.raise "TypeError" "no names to look at"
  | _ => return none

end ProviderRegistry.World
