import ProviderRegistry.DottedName
import ProviderRegistry.Literal
import ProviderRegistry.Table
import ProviderRegistry.World.Builtin
import ProviderRegistry.World.Description

/-!
# Classes

Classes that have been made. A class is known by its number, and making a
class of the same name again makes another class. What a class has, it looks
up along its linearisation: itself, and then its ancestors in an order that
keeps every class before its bases and the bases of every class in their
order.
-/

namespace ProviderRegistry.World

/-- The number of a class, in the order in which classes were made. -/
abbrev ClassId := Nat

/-- What a name can be bound to. -/
inductive Object where
  | literal (l : Literal)
  | type (id : ClassId)
  | module (name : String)
  /-- An instance of a class, by the number it was made with. -/
  | instanceOf (type : ClassId) (number : Nat)
  /-- A function that stands in the body of a class. -/
  | function (owner : ClassId) (name : String)
  deriving DecidableEq, Repr

/-- What stands in the body of a class under a name. -/
inductive Attribute where
  | method (abstract : Bool)
  | object (o : Object)
  | accessor (kind : AccessorKind) (outcome : AccessorOutcome)
  /-- A static accessor that returns an object kept since the class was made. -/
  | keeper (o : Object)
  deriving DecidableEq, Repr

/-- Whether what stands in a body can be called. -/
def Attribute.isCallable : Attribute → Bool
  | object (.type _) => true
  | object (.function _ _) => true
  | object _ => false
  | _ => true

/-- The marker that a class carries. -/
structure Marker where
  value : Object
  generateFactory : Literal
  deriving DecidableEq, Repr

/-- A class. -/
structure LiveClass where
  name : String
  qualname : String
  module : String
  bases : List ClassId
  /-- The linearisation, the class itself included. -/
  order : List ClassId
  metaclass : Metaclass
  /-- The name of the built-in class that decides how instances are laid out. -/
  layout : String
  attributes : Table String Attribute := []
  /-- The members that keep it from being instantiated. -/
  abstractMembers : List String := []
  /-- Whether the class states a protocol itself. -/
  isProtocol : Bool := false
  /-- Whether it was made checkable by the members that it states. -/
  isCheckable : Bool := false
  isFinal : Bool := false
  hasMembers : Bool := false
  marker : Option Marker := none
  construction : Option Construction := none
  /-- Whether making an instance is refused for the protocol that it states. -/
  refusesInstances : Bool := false
  /-- What is known of it if it was there from the start. -/
  builtin : Option Builtin := none

/-- The name of a class with its module. -/
def LiveClass.qualifiedName (c : LiveClass) : String := c.module ++ "." ++ c.qualname

/-! ## Linearisation -/

section

variable {α : Type} [DecidableEq α]

/-- The first of the heads that stands in no tail. -/
def nextHead? (lists : List (List α)) : Option α :=
  (lists.filterMap List.head?).find? fun c => lists.all fun l => !l.tail.contains c

/-- Merges lists so that the order of each is kept; each of the `steps` takes one
class. When no head can be taken, the heads are what is in the way. -/
def mergeOrders : (steps : Nat) → List (List α) → Except (List α) (List α)
  | 0, _ => .ok []
  | steps + 1, lists =>
    let lists := lists.filter (!·.isEmpty)
    if lists.isEmpty then .ok []
    else match nextHead? lists with
      | none => .error (lists.filterMap List.head?).eraseDups
      | some c =>
        (mergeOrders steps (lists.map fun l => if l.head? = some c then l.tail else l)).map (c :: ·)

/-- The ancestors of a class in order, from the bases and their linearisations. -/
def ancestors (bases : List α) (orders : List (List α)) : Except (List α) (List α) :=
  mergeOrders (orders.flatten.length + bases.length + 1) (orders ++ [bases])

end

/-! ## Tables of classes -/

/-- The classes made so far; a class's number is its place. -/
abbrev Classes := Array LiveClass

namespace Classes

variable (classes : Classes)

/-- The linearisation of a class. -/
def orderOf (id : ClassId) : List ClassId := ((classes[id]?).map (·.order)).getD []

/-- The classes along the linearisation of a class. -/
def lineage (id : ClassId) : List LiveClass := (classes.orderOf id).filterMap (classes[·]?)

/-- The number of a class by its qualified name, the one made first. -/
def find? (name : String) : Option ClassId := classes.findIdx? (·.qualifiedName == name)

/-- The first class along the linearisation of a class that has a name in its body,
and what it has there. -/
def definition? (id : ClassId) (name : String) : Option (ClassId × Attribute) :=
  (classes.orderOf id).findSome? fun owner =>
    ((classes[owner]?).bind (·.attributes.lookup name)).map (owner, ·)

/-- What a class has under a name, along its linearisation. -/
def attribute? (id : ClassId) (name : String) : Option Attribute :=
  (classes.definition? id name).map (·.2)

/-- Whether a class is another one or derives from it. -/
def derives (id ancestor : ClassId) : Bool := (classes.orderOf id).contains ancestor

/-- Whether a class derives from the class with a qualified name. -/
def derivesFrom (id : ClassId) (name : String) : Bool :=
  (classes.lineage id).any (·.qualifiedName == name)

/-- A class as messages show it. -/
def display (id : ClassId) : String :=
  match classes[id]? with
  | none => ""
  | some c =>
    if c.metaclass = .enumeration then
      (if classes.derivesFrom id "enum.Flag" then "<flag '" else "<enum '") ++ c.name ++ "'>"
    else "<class '" ++ (if c.module = "builtins" then c.qualname else c.qualifiedName) ++ "'>"

/-- The names that a decorator puts into the body of a class, none of them a method. -/
def decoratorNames (c : LiveClass) : List String :=
  (if c.marker.isSome then ["__service_provider__"] else []) ++
    (if c.isFinal then ["__final__"] else [])

/-- The members that a protocol states, its own and those of the protocols it
derives from. -/
def protocolMembers (id : ClassId) : List String :=
  ((classes.lineage id).filter fun c => c.name != "Protocol" && c.name != "Generic").flatMap
    fun c => c.attributes.map (·.1) ++ decoratorNames c

/-- Whether a class counts as a protocol by its members: the protocol must be
checkable, and all it states must be methods. -/
def matchesMembers (id protocol : ClassId) : Bool :=
  (classes[protocol]?).any (·.isProtocol) && (classes.lineage protocol).any (·.isCheckable) &&
    (classes.protocolMembers protocol).all fun name =>
      (classes.attribute? protocol name).any (·.isCallable) && (classes.attribute? id name).isSome

/-- Whether a class is a subtype of another: it derives from it, or has what it
states as a protocol. -/
def isSubtype (id other : ClassId) : Bool :=
  classes.derives id other || classes.matchesMembers id other

/-- The class made from the description of a built-in one. -/
def ofBuiltin (b : Builtin) : LiveClass :=
  let bases := b.bases.filterMap (Classes.find? classes)
  let order := match ancestors bases (bases.map (Classes.orderOf classes)) with
    | .ok above => classes.size :: above
    | .error _ => [classes.size]
  { name := b.name
    qualname := b.name
    module := b.module
    bases
    order
    metaclass := b.metaclass
    layout := b.layout
    isProtocol := b.metaclass == .protocol
    builtin := some b }

/-- The classes that are there from the start. -/
def initial : Classes :=
  builtinClasses.foldl (fun classes b => classes.push (ofBuiltin classes b)) #[]

end Classes

end ProviderRegistry.World
