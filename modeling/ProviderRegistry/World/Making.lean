import ProviderRegistry.Literal.Display
import ProviderRegistry.World.Reference

/-!
# Making classes

What a class statement does: its marker and its bases are looked up, its body
runs, and then the class is made, unless a rule forbids it. The rules are
checked one after another, each with a text of its own.
-/

namespace ProviderRegistry.World

/-! ## Metaclasses -/

/-- Whether a metaclass derives from another. -/
def Metaclass.derives : Metaclass → Metaclass → Bool
  | _, .plain => true
  | .protocol, .abstract => true
  | a, b => a == b

/-- The text for bases that do not agree on how classes are made. -/
def metaclassConflict : String :=
  "metaclass conflict: the metaclass of a derived class must be a (non-strict) subclass of " ++
    "the metaclasses of all its bases"

/-- The metaclass of a class with some bases: the most derived of theirs. -/
def metaclassOf? : List Metaclass → Option Metaclass
  | [] => some .plain
  | m :: rest => (metaclassOf? rest).bind fun other =>
    if m.derives other then some m else if other.derives m then some other else none

/-- The text for a base that is not a class. -/
def strangeBase : Object → String
  | .literal .none => "NoneType takes no arguments"
  | .literal .ellipsis => "EllipsisType takes no arguments"
  | .literal (.bool _) => "bool expected at most 1 argument, got 3"
  | .literal (.float _) => "float expected at most 1 argument, got 3"
  | .literal (.int _) => "int() takes at most 2 arguments (3 given)"
  | .literal (.complex _ _) => "complex() takes at most 2 arguments (3 given)"
  | .literal (.str _) => "str() argument 'encoding' must be str, not tuple"
  | .literal (.bytes _) => "bytes() argument 'encoding' must be str, not tuple"
  | .module _ => "module() takes at most 2 arguments (3 given)"
  | .function _ _ => "function() argument 'code' must be code, not str"
  | _ => metaclassConflict

/-- The classes that bases are. -/
def basesOf (objects : List Object) : Run (List ClassId) :=
  let classes := objects.filterMap fun o => match o with
    | .type id => some id
    | _ => none
  if classes.length = objects.length then return classes
  else Run.raise "TypeError" (if classes.isEmpty then
    (objects.head?.map strangeBase).getD metaclassConflict else metaclassConflict)

/-! ## Rules -/

/-- A rule for making a class: nothing, or the text of what is wrong. -/
abbrev Rule := Except String Unit

namespace Classes

variable (classes : Classes)

/-- An enumeration with members has no further classes below it, and the last base
of an enumeration is an enumeration. -/
def checkEnumeration (name : String) (bases : List ClassId) : Rule :=
  match (bases.flatMap (Classes.orderOf classes)).find?
      fun id => (classes[id]?).any (·.hasMembers) with
  | some id => .error ("<enum '" ++ name ++ "'> cannot extend " ++ classes.display id)
  | none =>
    if (bases.getLast?.bind (classes[·]?)).any (·.metaclass == .enumeration) then .ok ()
    else .error
      "new enumerations should be created as `EnumName([mixin_type, ...] [data_type,] enum_type)`"

/-- Whether instances that are laid out in one way are also laid out in another. -/
def layoutDerives (a b : String) : Bool :=
  a == b || b == "object" ||
    (Classes.initial.find? ("builtins." ++ a)).any
      (Classes.initial.derivesFrom · ("builtins." ++ b))

/-- The layout of a class with some bases: they must all allow a class below them, and
one of their layouts must fit all others. -/
def layoutOf (bases : List ClassId) : Except String String :=
  (bases.filterMap (classes[·]?)).foldlM (fun layout base =>
    if base.builtin.any (!·.isBase) then
      .error ("type '" ++ base.name ++ "' is not an acceptable base type")
    else if layoutDerives layout base.layout then .ok layout
    else if layoutDerives base.layout layout then .ok base.layout
    else .error "multiple bases have instance lay-out conflict") "object"

/-- The first base that is listed again. -/
def repeated? : List ClassId → Option ClassId
  | [] => none
  | id :: rest => if rest.contains id then some id else repeated? rest

/-- The names of classes in a list. -/
def listed (ids : List ClassId) : String :=
  ", ".intercalate ((ids.filterMap (classes[·]?)).map (·.name))

/-- The linearisation above a class with some bases. -/
def orderAbove (bases : List ClassId) : Except String (List ClassId) :=
  match repeated? bases with
  | some id => .error ("duplicate base class " ++ classes.listed [id])
  | none =>
    (ancestors bases (bases.map (Classes.orderOf classes))).mapError fun heads =>
      "Cannot create a consistent method resolution\norder (MRO) for bases " ++
        classes.listed heads

/-- Whether a class is one of those that a protocol may derive from. -/
def mayUnderlieProtocol (id : ClassId) : Bool :=
  (classes[id]?).any fun c => c.qualifiedName == "builtins.object" ||
    c.qualifiedName == "typing.Generic" || (c.isProtocol && classes.derivesFrom id "typing.Generic")

/-- Nothing derives from the class of generic classes alone, and a protocol derives
from protocols only. -/
def checkProtocol (name : String) (bases : List ClassId) (isProtocol : Bool) : Rule :=
  if bases.any (fun id => (classes[id]?).any (·.qualifiedName == "typing.Generic")) &&
      name != "Protocol" then
    .error "Cannot inherit from plain Generic"
  else match isProtocol, bases.find? (!classes.mayUnderlieProtocol ·) with
    | true, some id =>
      .error ("Protocols can only inherit from other protocols, got " ++ classes.display id)
    | _, _ => .ok ()

/-- What happens first when an instance of a class is made, along its linearisation:
the class decides it itself, or is a protocol that refuses. -/
def decidesInstances (id : ClassId) : Bool :=
  (classes.lineage id).any fun c => c.construction.isSome || c.refusesInstances

/-- The abstract members of a class with a body: its own, and those of its bases that
stay abstract along its linearisation. -/
def abstractMembersOf (body : Table String Attribute) (bases above : List ClassId) : List String :=
  let isAbstract (name : String) : Bool :=
    ((body.lookup name).or
      ((above.filterMap (classes[·]?)).findSome? (·.attributes.lookup name))).any
        (· matches .method true)
  let own := (body.filter (·.2 matches .method true)).map (·.1)
  let inherited := (bases.filterMap (classes[·]?)).flatMap (·.abstractMembers)
  (own ++ inherited.filter isAbstract).eraseDups

end Classes

/-! ## Bodies -/

/-- Turns a broken rule into an exception. -/
def obey (result : Except String α) : Run α :=
  match result with
  | .ok a => return a
  | .error text => Run.raise "TypeError" text

/-- Whether a name has a single underscore at both ends, which enumerations keep for
themselves. -/
def isReserved (name : String) : Bool :=
  2 < name.length && name.startsWith "_" && name.endsWith "_" &&
    !name.startsWith "__" && !name.endsWith "__"

/-- Whether a name has two underscores at both ends. -/
def isSpecial (name : String) : Bool :=
  4 < name.length && name.startsWith "__" && name.endsWith "__"

/-- What stands in a body, as messages show it. -/
def showAttribute (classes : Classes) : Attribute → String
  | .object (.literal l) => l.display
  | .object (.type id) => classes.display id
  | _ => "<function>"

/-- Sets a name in a body. In an enumeration an object becomes a member, and a member
takes no name that is taken and gives up none. -/
def setInBody (isEnumeration : Bool) (name : String) (value : Attribute)
    (body : Table String Attribute) : Run (Table String Attribute) := do
  if !isEnumeration || isSpecial name then return Table.set name value body
  else if isReserved name then
    Run.raise "ValueError" ("_sunder_ names, such as " ++ Text.quote name ++
      ", are reserved for future Enum use")
  else match body.lookup name with
    | none => return Table.set name value body
    | some taken =>
      if taken matches .object _ || value matches .object _ then
        Run.raise "TypeError" (Text.quote name ++ " already defined as " ++
          showAttribute (← Run.world).classes taken)
      else return Table.set name value body

/-- The body of a class up to its nested classes. -/
def startBody (importer : Importer) (module : String) (isEnumeration : Bool)
    (c : ClassDescription) : Run (Table String Attribute) := do
  let set := setInBody isEnumeration
  let body ← c.abstract.foldlM (fun body name => set name (.method true) body) []
  let body ← c.methods.foldlM (fun body name => set name (.method false) body) body
  let body ← c.attributes.foldlM (fun body (name, r) => do
    set name (.object (← resolve importer ⟨module, body⟩ r)) body) body
  c.members.zipIdx.foldlM (fun body (name, i) =>
    set name (.object (.literal (.int (i + 1)))) body) body

/-- The body with the accessor. -/
def endBody (isEnumeration : Bool) (c : ClassDescription) (body : Table String Attribute) :
    Run (Table String Attribute) :=
  match c.accessor with
  | none => return body
  | some a => setInBody isEnumeration "get_instance" (.accessor a.kind a.outcome) body

/-! ## Members -/

/-- The name of the class that makes classes of a kind. -/
def Metaclass.typeName : Metaclass → String
  | .plain => "type"
  | .abstract => "ABCMeta"
  | .protocol => "_ProtocolMeta"
  | .enumeration => "EnumType"

/-- The member that an object in the body of an enumeration becomes. If members are
numbers, the object must be one; a constructor is called with it. -/
def makeMember (id : ClassId) (isNumber : Bool) (constructor : Option (String × Construction))
    (o : Object) : Run Object := do
  if let .type value := o then
    if isNumber then
      let metaclass := (((← Run.world).class? value).map (·.metaclass)).getD .plain
      Run.raise "TypeError" ("int() argument must be a string, a bytes-like object or a real " ++
        "number, not '" ++ metaclass.typeName ++ "'")
  if let some (qualname, .raises _) := constructor then
    Run.raise "TypeError" (qualname ++ ".__init__() takes 1 positional argument but 2 were given")
  Run.newInstance id

/-- The body of an enumeration: every object in it becomes a member, the same object
always the same. The objects that are members already stand in `known`. -/
def makeMembers (id : ClassId) (isNumber : Bool) (constructor : Option (String × Construction)) :
    Table String Attribute → (known : Table Object Object) → Run (Table String Attribute)
  | [], _ => return []
  | (name, value) :: rest, known => do
    match value, isSpecial name with
    | .object o, false =>
      match known.lookup o with
      | some made =>
        return (name, .object made) :: (← makeMembers id isNumber constructor rest known)
      | none =>
        let made ← makeMember id isNumber constructor o
        return (name, .object made) ::
          (← makeMembers id isNumber constructor rest ((o, made) :: known))
    | _, _ => return (name, value) :: (← makeMembers id isNumber constructor rest known)

/-- Whether a number is a power of two. -/
def isSingleBit (n : Int) : Bool := 0 < n && (Nat.pow 2 n.toNat.log2 : Nat) == n

/-- Whether an object is listed as a member: every one is, except that of flags only
single bits are. -/
def isListed (isFlag : Bool) : Attribute → Bool
  | .object (.literal (.int n)) => !isFlag || isSingleBit n
  | .object _ => !isFlag
  | _ => false

/-- The marker of a class, with its argument looked up. -/
def markerOf (importer : Importer) (frame : Frame) (call : MarkerCall) : Run Marker := do
  let value ← match call.value with
    | none => pure (.literal .none)
    | some (.literal l) => pure (.literal l)
    | some (.ref r) => resolve importer frame r
  return { value, generateFactory := call.generateFactory.getD (.bool false) }

/-! ## Classes -/

/-- The constructor that decides how instances are made, with the qualified name of its
class: the class's own, or else the first one above it. -/
def constructorOf? (classes : Classes) (qualname : String) (own : Option Construction)
    (above : List ClassId) : Option (String × Construction) :=
  (own.map (qualname, ·)).or ((above.filterMap (classes[·]?)).findSome? fun c =>
    c.construction.map (c.qualname, ·))

/-- Makes a class from its bases and its body. -/
def finishClass (module qualname : String) (c : ClassDescription) (marker : Option Marker)
    (bases : List ClassId) (metaclass : Metaclass) (body : Table String Attribute) :
    Run ClassId := do
  let classes := (← Run.world).classes
  let isEnumeration := metaclass == .enumeration
  if isEnumeration && (body.lookup "mro").any (· matches .object _) then
    Run.raise "ValueError" "invalid enum member name(s) 'mro'"
  let layout ← obey (classes.layoutOf bases)
  let above ← obey (classes.orderAbove bases)
  let id := classes.size
  let isBelow (name : String) : Bool :=
    above.any fun a => (classes[a]?).any (·.qualifiedName == name)
  let isProtocol := bases.any fun b => (classes[b]?).any (·.qualifiedName == "typing.Protocol")
  let attributes ← if isEnumeration then
      makeMembers id (isBelow "builtins.int") (constructorOf? classes qualname c.construction above)
        body []
    else pure body
  if isBelow "typing.Generic" then obey (classes.checkProtocol c.name bases isProtocol)
  let hasMembers := isEnumeration && body.any fun (name, value) =>
    !isSpecial name && isListed (isBelow "enum.Flag") value
  let abstractMembers := if metaclass == .abstract || metaclass == .protocol then
    classes.abstractMembersOf body bases above else []
  let refusesInstances := isProtocol && c.construction.isNone &&
    !bases.any classes.decidesInstances
  let id ← Run.addClass {
    name := c.name
    qualname, module, bases
    order := id :: above
    metaclass, layout, attributes, abstractMembers, isProtocol
    isCheckable := c.runtimeCheckable
    isFinal := c.final
    hasMembers, marker
    construction := c.construction
    refusesInstances }
  if c.runtimeCheckable && !isProtocol then
    Run.raise "TypeError" ("@runtime_checkable can be only applied to protocol classes, got " ++
      (← Run.world).classes.display id)
  return id

/-- Looks up the marker and the bases of a class, and finds out how it is made. -/
def startClass (importer : Importer) (frame : Frame) (c : ClassDescription) :
    Run (Option Marker × List ClassId × Metaclass) := do
  let marker ← c.marker.mapM (markerOf importer frame)
  let bases ← basesOf (← c.bases.mapM (resolve importer frame))
  let classes := (← Run.world).classes
  let bases := if bases.isEmpty then (classes.find? "builtins.object").toList else bases
  match metaclassOf? ((bases.filterMap (classes[·]?)).map (·.metaclass)) with
  | none => Run.raise "TypeError" metaclassConflict
  | some metaclass =>
    if metaclass == .enumeration then obey (classes.checkEnumeration c.name bases)
    return (marker, bases, metaclass)

mutual

/-- Runs a class statement: the number of the class made. -/
def makeClass (importer : Importer) (frame : Frame) (outer : String) :
    ClassDescription → Run ClassId
  | c@⟨name, _, _, _, _, _, nested, _, _, _, _, _⟩ => do
    let qualname := qualify outer name
    let (marker, bases, metaclass) ← startClass importer frame c
    let isEnumeration := metaclass == .enumeration
    let body ← startBody importer frame.module isEnumeration c
    let body ← makeNested importer frame.module qualname isEnumeration body nested
    let body ← endBody isEnumeration c body
    finishClass frame.module qualname c marker bases metaclass body

/-- Runs the class statements in the body of a class. -/
def makeNested (importer : Importer) (module outer : String) (isEnumeration : Bool)
    (body : Table String Attribute) : List ClassDescription → Run (Table String Attribute)
  | [] => return body
  | c :: rest => do
    let id ← makeClass importer ⟨module, body⟩ outer c
    let body ← setInBody isEnumeration c.name (.object (.type id)) body
    makeNested importer module outer isEnumeration body rest

end

end ProviderRegistry.World
