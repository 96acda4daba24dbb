import ProviderRegistry.DottedName
import ProviderRegistry.Literal

/-!
# Descriptions of modules

Modules that can be imported, described by the statements that run when they
are. A statement declares a class, binds a name, imports another module or
raises an exception.
-/

namespace ProviderRegistry.World

/-- How something is referred to. -/
inductive Ref where
  /-- By a module, which is imported, and the attributes to go through. -/
  | qualified (module : String) (attributes : List String)
  /-- By a name that is looked up where the reference stands, and attributes. -/
  | named (name : String) (attributes : List String)
  deriving DecidableEq, Repr

/-- A reference as it is written: a colon stands after a module. -/
def Ref.ofString (text : String) : Ref :=
  match (Text.pieces (· == ':') text.toList).map String.ofList with
  | [module, path] => qualified module (dottedParts path)
  | _ => match dottedParts text with
    | head :: rest => named head rest
    | [] => named text []

/-- The argument of a marker. -/
inductive Argument where
  | ref (r : Ref)
  | literal (l : Literal)
  deriving DecidableEq, Repr

/-- The marker on a class, with the arguments that are given. -/
structure MarkerCall where
  value : Option Argument := none
  generateFactory : Option Literal := none
  deriving DecidableEq, Repr

/-- What a class does when an instance of it is made. -/
inductive Construction where
  | needsArgument
  | raises (kind : String)
  deriving DecidableEq, Repr

/-- How an accessor is declared. -/
inductive AccessorKind where
  | static
  | classMethod
  | ordinary
  deriving DecidableEq, Repr

/-- What an accessor does: it returns nothing, a new instance of a class, or raises. -/
inductive AccessorOutcome where
  | nothing
  | makes (r : Ref)
  | raises (kind : String)
  deriving DecidableEq, Repr

/-- The accessor of a class. -/
structure Accessor where
  kind : AccessorKind
  outcome : AccessorOutcome
  deriving DecidableEq, Repr

/-- A class statement. -/
structure ClassDescription where
  name : String
  bases : List Ref := []
  /-- The methods that are marked abstract. -/
  abstract : List String := []
  methods : List String := []
  /-- Names in the body that are bound to other classes. -/
  attributes : List (String × Ref) := []
  /-- The members of an enumeration. -/
  members : List String := []
  nested : List ClassDescription := []
  final : Bool := false
  runtimeCheckable : Bool := false
  marker : Option MarkerCall := none
  construction : Option Construction := none
  accessor : Option Accessor := none
  deriving Inhabited, Repr

/-- A statement of a module. -/
inductive Statement where
  | declare (c : ClassDescription)
  | bindRef (name : String) (r : Ref)
  | bindLiteral (name : String) (value : Literal)
  | importModule (name : String)
  | raises (kind message : String)
  /-- Binds a class that is made inside a function. -/
  | bindLocalClass (name : String)
  deriving Repr

/-- A module: its name, whether it is a package, and its statements. -/
structure ModuleDescription where
  name : String
  isPackage : Bool
  body : List Statement
  deriving Repr

end ProviderRegistry.World
