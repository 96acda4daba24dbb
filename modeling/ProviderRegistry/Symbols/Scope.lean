import ProviderRegistry.Symbols.Builtin
import ProviderRegistry.Symbols.Source

/-!
# What names mean

The modules that have been read, and what a name written in one of them refers
to. A name that starts with a class or an import of its module is followed
through the imports of other modules to the module that declares it, so that
a class has one qualified name however it was reached.
-/

namespace ProviderRegistry.Symbols

/-- A class with the module that declares it. -/
structure Declared where
  module : SourceModule
  declaration : ClassDeclaration

/-- What has been read: the modules by name, and the classes by qualified name. -/
structure Scope where
  modules : Table String SourceModule := []
  classes : Table String Declared := []

namespace Scope

/-- The scope with one more module. A class declared again takes the place of the
one before. -/
def add (scope : Scope) (m : SourceModule) : Scope where
  modules := scope.modules ++ [(m.name, m)]
  classes := m.classes.foldl (fun classes c =>
    Table.set (qualify m.name c.qualname) ⟨m, c⟩ classes) scope.classes

/-- Whether a qualified name is that of a class. -/
def declares (scope : Scope) (name : String) : Bool := scope.classes.has name

/-- The split of a name into a module that has been read, its longest, and the
components after it, of which `rest` come at the end. -/
def splitModule? (scope : Scope) (rest : List String) :
    (initial : List String) → Option (SourceModule × List String)
  | [] => none
  | last :: before =>
    match scope.modules.lookup (joinDots (last :: before).reverse) with
    | some m => some (m, rest)
    | none => splitModule? scope (last :: rest) before

/-- What a name stands for one import further on: the first component after its
module must be imported there and not be a class of that module. -/
def hop? (scope : Scope) (name : String) : Option String :=
  match (dottedParts name).reverse with
  | [] => none
  | last :: before =>
    match scope.splitModule? [last] before with
    | some (m, head :: rest) =>
      if m.topLevel.contains head then none
      else (m.imports.lookup head).map fun target => joinDots (target :: rest)
    | _ => none

/-- Follows imports until a class is reached, no import leads further, or `hops`
have been made. -/
def canonicalWithin (scope : Scope) : (hops : Nat) → String → String
  | 0, name => name
  | hops + 1, name =>
    if scope.declares name then name
    else match scope.hop? name with
      | some next => canonicalWithin scope hops next
      | none => name

/-- The most imports that are followed. -/
def maxHops : Nat := 17

/-- The name of a class in the module that declares it. -/
def canonical (scope : Scope) (name : String) : String := scope.canonicalWithin maxHops name

/-- The first component of a dotted name and the others. -/
def splitHead (name : String) : String × List String :=
  match dottedParts name with
  | [] => ("", [])
  | head :: rest => (head, rest)

/-- The qualified name that the first component of a name has in a module: a class
of the module comes first, then an import, then a built-in name. -/
def headMeaning? (m : SourceModule) (head : String) : Option String :=
  if m.topLevel.contains head then some (qualify m.name head)
  else match m.imports.lookup head with
    | some target => some target
    | none => if builtinNames.contains head then some (qualify "builtins" head) else none

/-- The qualified name that a name written in a module refers to. A name that
nothing is known of stands for itself. -/
def resolve (scope : Scope) (m : SourceModule) (name : String) : String :=
  let (head, rest) := splitHead name
  match headMeaning? m head with
  | some meaning => scope.canonical (joinDots (meaning :: rest))
  | none => name

/-- The qualified names of the bases of a class, as far as they are dotted names. -/
def supertypes (scope : Scope) (d : Declared) : List String :=
  (d.declaration.bases.filterMap (·.dotted?)).map (scope.resolve d.module)

end Scope

end ProviderRegistry.Symbols
