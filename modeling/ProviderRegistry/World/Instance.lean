import ProviderRegistry.World.State

/-!
# Instances

What happens when a class is called without arguments. A class may refuse:
because it is abstract, because it states a protocol, because it needs an
argument, or because its constructor raises an exception of its own.
-/

namespace ProviderRegistry.World

/-- The constants that calls of built-in classes give. -/
def emptyLiteral? (qualifiedName : String) : Option Literal :=
  [("builtins.int", Literal.int 0), ("builtins.bool", .bool false), ("builtins.str", .str ""),
    ("builtins.bytes", .bytes []), ("builtins.float", .float 0),
    ("builtins.complex", .complex 0 0)].lookup qualifiedName

/-- Whether the abstract members of a class keep it from being instantiated; classes
that are built on a class with instances of its own kind are not asked. -/
def Classes.isHeldBack (classes : Classes) (id : ClassId) (c : LiveClass) : Bool :=
  !c.abstractMembers.isEmpty && !(classes.lineage id).any (·.builtin.any (·.ownConstruction))

/-- The class that decides what its constructor does, along the linearisation. A
protocol refuses, but a class that implements one does not. -/
def Classes.constructor? (classes : Classes) (id : ClassId) (c : LiveClass) : Option LiveClass :=
  (classes.lineage id).find? fun d => d.construction.isSome || (c.isProtocol && d.refusesInstances)

/-- Calls a class without arguments. -/
def instantiate (id : ClassId) : Run Object := do
  let classes := (← Run.world).classes
  match classes[id]? with
  | none => Run.raise "TypeError" "not a class"
  | some c =>
    if c.metaclass == .enumeration then
      Run.raise "TypeError" "a member of an enumeration is known by its value"
    else if classes.isHeldBack id c then
      Run.raise "TypeError" ("abstract class " ++ c.name)
    else match classes.constructor? id c with
      | some d => match d.construction with
        | some (.raises kind) => Run.raise kind ""
        | some .needsArgument => Run.raise "TypeError" "a required argument is missing"
        | none => Run.raise "TypeError" "Protocols cannot be instantiated"
      | none =>
        if (classes.lineage id).any (·.builtin.any (!·.constructible)) then
          Run.raise "TypeError" "a required argument is missing"
        else match emptyLiteral? c.qualifiedName with
          | some l => return .literal l
          | none => Run.newInstance id

/-- The class of an object. -/
def classOf? (w : World) : Object → Option ClassId
  | .instanceOf id _ => some id
  | .literal l => w.classes.find? ("builtins." ++ l.typeName)
  | _ => none

end ProviderRegistry.World
