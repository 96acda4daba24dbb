import ProviderRegistry.FileTree
import ProviderRegistry.World.Class

/-!
# The world

What has been imported so far: modules by name, the classes made, and the
loaders that are bound. Running a statement changes the world and may raise an
exception; what changed before the exception stays changed.
-/

namespace ProviderRegistry.World

/-- An exception: the name of its class, its text, and the classes of the exceptions
that caused it, outermost first. -/
structure Raised where
  kind : String
  message : String := ""
  causes : List String := []
  deriving DecidableEq, Repr

namespace Raised

/-- Whether an exception is of a class that is there from the start. The classes that
this library declares are exceptions like any other. -/
def isA (e : Raised) (kind : String) : Bool :=
  e.kind == kind ||
    match Classes.initial.find? ("builtins." ++ e.kind) with
    | some id => Classes.initial.derivesFrom id ("builtins." ++ kind)
    | none => kind == "Exception"

/-- An exception with another as its cause. -/
def causedBy (e cause : Raised) : Raised := { e with causes := cause.kind :: cause.causes }

/-- The exception that raising a class with a text gives. The text of a missing key is
quoted. -/
def ofText (kind text : String) : Raised :=
  let e : Raised := { kind }
  { e with message := if e.isA "KeyError" then Text.quote text else text }

/-- The class of the exceptions that failed file operations raise. -/
def kindOfCause : FileError.Cause → String
  | .notFound => "FileNotFoundError"
  | .alreadyExists => "FileExistsError"
  | .notDirectory => "NotADirectoryError"
  | .isDirectory => "IsADirectoryError"
  | .nameTooLong => "OSError"
  | .nullCharacter => "ValueError"

/-- The exception for a failed file operation. -/
def ofFile (e : FileError) : Raised := { kind := kindOfCause e.cause, message := e.message }

/-- The exception for a text file that could not be read or written. -/
def ofTextFile (e : TextFileError) : Raised :=
  match e with
  | .file f => ofFile f
  | .decode _ => { kind := "UnicodeDecodeError", message := e.message }
  | .encode _ => { kind := "UnicodeEncodeError", message := e.message }
  | .unknownEncoding _ => { kind := "LookupError", message := e.message }

end Raised

/-- A module that has been imported, or is being imported. -/
structure LiveModule where
  name : String
  /-- Where the modules inside it are looked for, if it is a package. -/
  searchPath : Option (List Path) := none
  file : Option Path := none
  names : Table String Object := []
  /-- Whether its statements are still running. -/
  isLoading : Bool := false

/-- Where registry files are looked for: below roots of its own, or below the
directories that modules are looked for in. -/
structure ResourceLoader where
  roots : Option (List Path) := none
  deriving DecidableEq, Repr

end ProviderRegistry.World

namespace ProviderRegistry

open World in
/-- The state that imports and loaders work on. -/
structure World where
  files : FileTree
  /-- The directories that modules are looked for in. -/
  path : List Path := []
  /-- The statements that the text of a file stands for. -/
  programs : Table (List UInt8) (List Statement) := []
  modules : Table String LiveModule
  classes : Classes
  /-- How many instances have been made. -/
  made : Nat := 0
  /-- The loaders that are bound, innermost first. -/
  bound : List ResourceLoader := []

end ProviderRegistry

namespace ProviderRegistry.World

/-! ## Computations -/

/-- A computation that changes the world and may raise an exception. -/
abbrev Run := ExceptT Raised (StateM World)

namespace Run

/-- Raises an exception. -/
def raise (kind message : String) : Run α := throw { kind, message }

/-- The value of a computation, or the exception that it raises. -/
def outcome (action : Run α) : Run (Except Raised α) :=
  tryCatch (Except.ok <$> action) fun e => return .error e

/-- The value of a file operation, or the exception for its failure. -/
def ofFile (result : Except FileError α) : Run α :=
  match result with
  | .ok a => return a
  | .error e => throw (Raised.ofFile e)

/-- The world as it is. -/
def world : Run World := get

/-- Adds a class. -/
def addClass (c : LiveClass) : Run ClassId := do
  let w ← world
  set { w with classes := w.classes.push c }
  return w.classes.size

/-- Makes an instance of a class. -/
def newInstance (id : ClassId) : Run Object := do
  let w ← world
  set { w with made := w.made + 1 }
  return .instanceOf id w.made

end Run

/-! ## The world as a value -/

/-- The modules that hold the classes that are there from the start. -/
def initialModules : Table String LiveModule :=
  builtinClasses.zipIdx.foldl (fun modules (b, id) =>
    let m := (modules.lookup b.module).getD { name := b.module }
    Table.set b.module { m with names := Table.set b.name (.type id) m.names } modules) []

/-- A world with files in which nothing has been imported. -/
def new (files : FileTree) (path : List Path := []) : World where
  files
  path
  modules := initialModules
  classes := Classes.initial

/-- The class with a number. -/
def class? (w : World) (id : ClassId) : Option LiveClass := w.classes[id]?

/-- The names of a module. -/
def namesOf (w : World) (module : String) : Table String Object :=
  ((w.modules.lookup module).map (·.names)).getD []

/-- The world with a name of a module bound. -/
def bindName (w : World) (module name : String) (o : Object) : World :=
  match w.modules.lookup module with
  | none => w
  | some m =>
    { w with modules := Table.set module { m with names := Table.set name o m.names } w.modules }

/-- Whether a module is a package. -/
def isPackage (w : World) (module : String) : Bool :=
  (w.modules.lookup module).any (·.searchPath.isSome)

/-- A relative path from the working directory. -/
def absolute (w : World) (p : Path) : Path := Path.append ⟨.single, w.files.home⟩ p

/-! ## Attributes -/

/-- The text of an exception about a name that a module lacks. -/
def missingName (m : LiveModule) (name : String) : String :=
  if m.isLoading then
    "partially initialized module '" ++ m.name ++ "' has no attribute '" ++ name ++
      "' (most likely due to a circular import)"
  else "module '" ++ m.name ++ "' has no attribute '" ++ name ++ "'"

/-- The attributes that describe a class or a function. -/
def describe? (name qualname module wanted : String) : Option Object :=
  if wanted = "__name__" then some (.literal (.str name))
  else if wanted = "__qualname__" then some (.literal (.str qualname))
  else if wanted = "__module__" then some (.literal (.str module))
  else none

/-- An attribute of a module. -/
def moduleAttribute? (m : LiveModule) (name : String) : Option Object :=
  (m.names.lookup name).or (if name = "__name__" then some (.literal (.str m.name)) else none)

/-- An attribute of a class: one that it has along its linearisation, or one that
every class has. -/
def classAttribute? (classes : Classes) (id : ClassId) (name : String) : Option Object :=
  match classes.definition? id name with
  | some (_, .object o) => some o
  | some (owner, _) => some (.function owner name)
  | none => (classes[id]?).bind fun c => describe? c.name c.qualname c.module name

/-- The attribute of a whole number. -/
def numberAttribute? (n : Int) (name : String) : Option Object :=
  if name = "real" || name = "numerator" then some (.literal (.int n))
  else if name = "imag" then some (.literal (.int 0))
  else if name = "denominator" then some (.literal (.int 1))
  else none

/-- The attribute of an object, if it has it. -/
def attribute? (w : World) (o : Object) (name : String) : Option Object :=
  match o with
  | .module m => (w.modules.lookup m).bind (moduleAttribute? · name)
  | .type id => classAttribute? w.classes id name
  | .function owner function =>
    (w.class? owner).bind fun c => describe? function (c.qualname ++ "." ++ function) c.module name
  | .literal (.int n) => numberAttribute? n name
  | .literal (.bool b) => numberAttribute? (if b then 1 else 0) name
  | .instanceOf id _ => match w.classes.attribute? id name with
    | some (.object o) => some o
    | some _ => some (.function id name)
    | none => ((w.class? id).filter fun _ => name == "__module__").map fun c =>
      .literal (.str c.module)
  | .literal _ => none

/-- The text of an exception about an attribute that an object lacks. -/
def missingAttribute (w : World) (o : Object) (name : String) : String :=
  match o with
  | .module m => match w.modules.lookup m with
    | some live => missingName live name
    | none => "module '" ++ m ++ "' has no attribute '" ++ name ++ "'"
  | .type id => match w.class? id with
    | some c =>
      if c.metaclass = .enumeration then name
      else "type object '" ++ c.name ++ "' has no attribute '" ++ name ++ "'"
    | none => name
  | .function _ _ => "'function' object has no attribute '" ++ name ++ "'"
  | .instanceOf id _ =>
    let kind := ((w.class? id).map (·.name)).getD "object"
    "'" ++ kind ++ "' object has no attribute '" ++ name ++ "'"
  | .literal l => "'" ++ l.typeName ++ "' object has no attribute '" ++ name ++ "'"

/-- An attribute of an object. -/
def getAttribute (o : Object) (name : String) : Run Object := do
  let w ← Run.world
  match attribute? w o name with
  | some found => return found
  | none => Run.raise "AttributeError" (missingAttribute w o name)

/-- The attribute of an attribute, and so on. -/
def getAttributes (o : Object) (names : List String) : Run Object := names.foldlM getAttribute o

/-- An attribute that is a text, which only classes and functions have. -/
def textAttribute (o : Object) (name : String) : Run String := do
  match ← getAttribute o name with
  | .literal (.str s) => return s
  | _ => Run.raise "AttributeError" name

/-- The name of an object with its module. -/
def qualifiedNameOf (o : Object) : Run String := do
  let module ← textAttribute o "__module__"
  return module ++ "." ++ (← textAttribute o "__qualname__")

end ProviderRegistry.World
