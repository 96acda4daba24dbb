import ProviderRegistry.World.Making
import ProviderRegistry.World.Program
import ProviderRegistry.World.ServiceLoader

/-!
# Importing

Finding a module and running it. A module is imported once; while it runs, its
own imports run, and it is there already for those that come back to it. One
that raises an exception is taken away again, but what it has imported stays.
-/

namespace ProviderRegistry.World

/-! ## Finding -/

/-- Where a module was found. -/
inductive Found where
  | package (directory file : Path)
  | file (path : Path)
  /-- A directory that may be one of several that make up a package. -/
  | portion (directory : Path)

/-- Whether a path leads to a file; a path that cannot be followed does not. -/
def isFile (w : World) (p : Path) : Bool := w.files.isFile p matches .ok true

/-- Whether a path leads to a directory; a path that cannot be followed does not. -/
def isDirectory (w : World) (p : Path) : Bool := w.files.isDirectory p matches .ok true

/-- What a directory holds under the name of a module. -/
def findIn? (w : World) (name : String) (directory : Path) : Option Found :=
  let inner : Path := ⟨directory.root, directory.parts ++ [name]⟩
  let initial := inner.child "__init__.py"
  let file : Path := ⟨directory.root, directory.parts ++ [name ++ ".py"]⟩
  if name.isEmpty then none
  else if isDirectory w inner && isFile w initial then some (.package inner initial)
  else if isFile w file then some (.file file)
  else if isDirectory w inner then some (.portion inner)
  else none

/-- The first package or file in several directories, or else all portions. -/
def findAmong (w : World) (name : String) : List Path → (portions : List Path) →
    Option (Except (List Path) Found)
  | [], portions => if portions.isEmpty then none else some (.error portions)
  | directory :: rest, portions =>
    match findIn? w name directory with
    | some (.portion p) => findAmong w name rest (portions ++ [p])
    | some found => some (.ok found)
    | none => findAmong w name rest portions

/-- A module with the program that is to run in it. -/
structure Discovery where
  module : LiveModule
  program : Program

/-- The module of a name, looked for in some directories. -/
def discover? (w : World) (name : String) (directories : List Path) : Option Discovery :=
  let read (p : Path) : Program := match w.files.read p with
    | .ok bytes => .ofFile w bytes
    | .error _ => .malformed
  match findAmong w (splitLastDot name).2 directories [] with
  | none => none
  | some (.error portions) =>
    some ⟨{ name, searchPath := some portions }, .statements []⟩
  | some (.ok (.package directory file)) =>
    some ⟨{ name, searchPath := some [directory], file := some file, isLoading := true }, read file⟩
  | some (.ok (.file path)) =>
    some ⟨{ name, file := some path, isLoading := true }, read path⟩
  | some (.ok (.portion _)) => none

/-! ## Running -/

/-- Binds a name of a module. -/
def bindIn (module name : String) (o : Object) : Run Unit :=
  modify fun w => w.bindName module name o

/-- Runs a statement in a module. -/
def runStatement (importer : Importer) (module : String) : Statement → Run Unit
  | .declare c => do
    bindIn module c.name (.type (← makeClass importer ⟨module, []⟩ "" c))
  | .bindRef name r => do
    bindIn module name (← resolve importer ⟨module, []⟩ r)
  | .bindLiteral name value => bindIn module name (.literal value)
  | .importModule name => do
    importer name
    let head := (dottedParts name).headD name
    importer head
    bindIn module head (.module head)
  | .raises kind message => throw (.ofText kind message)
  | .bindLocalClass name => do
    let id ← makeClass importer ⟨module, []⟩ "_make.<locals>" { name }
    bindIn module name (.type id)

/-- The text of an exception about a name that cannot be imported from a module. -/
def unimportable (m : LiveModule) (name : String) : String :=
  let place := match m.file with
    | some p => " (" ++ p.text ++ ")"
    | none => " (unknown location)"
  if m.isLoading then
    "cannot import name '" ++ name ++ "' from partially initialized module '" ++ m.name ++
      "' (most likely due to a circular import)" ++ place
  else "cannot import name '" ++ name ++ "' from '" ++ m.name ++ "'" ++ place

/-- The text of an exception about a module that is not there. -/
def missingModule (name : String) : String := "No module named " ++ Text.quote name

/-- What a module has under a name when the name is imported from it: an attribute,
or a module inside it. -/
def importName (importer : Importer) (module name : String) : Run Object := do
  importer module
  match ((← Run.world).modules.lookup module) with
  | none => Run.raise "ImportError" ("cannot import name '" ++ name ++ "'")
  | some m =>
    match moduleAttribute? m name with
    | some o => return o
    | none =>
      let inner := module ++ "." ++ name
      if m.searchPath.isSome then
        let attempt ← (importer inner).outcome
        if let .error e := attempt then
          unless e.isA "ModuleNotFoundError" && e.message == missingModule inner do throw e
      if (← Run.world).modules.has inner then return .module inner
      else Run.raise "ImportError" (unimportable m name)

/-- The name under which a class keeps an attribute of its own. -/
def privateName (className name : String) : String :=
  "_" ++ (className.dropWhile (· == '_')).toString ++ name

/-- Runs a generated factory module: it loads the contract, makes an instance of the
first provider and keeps it in a class. -/
def runFactory (importer : Importer) (module : String) (f : FactoryProgram) : Run Unit := do
  bindIn module f.contractImport (← importName importer f.contractModule f.contractImport)
  let service ← resolve importer ⟨module, []⟩
    (.named (f.contractPath.headD "") f.contractPath.tail)
  let loader : ServiceLoader := { service, resources := (← Run.world).loader }
  let kept := (← loader.use (Loading.first importer)).getD (.literal .none)
  let classes := (← Run.world).classes
  let bases := (classes.find? "builtins.object").toList
  let id ← Run.addClass {
    name := f.className
    qualname := f.className
    module, bases
    order := classes.size :: bases
    metaclass := .plain
    layout := "object"
    attributes := [(privateName f.className "__INSTANCE", .object kept),
      (Naming.accessorName, .keeper kept)] }
  bindIn module f.className (.type id)

/-- Runs the program of a module. -/
def runProgram (importer : Importer) (module : String) : Program → Run Unit
  | .statements body => body.forM (runStatement importer module)
  | .factory f => runFactory importer module f
  | .malformed => Run.raise "SyntaxError" "SyntaxError"

/-- Runs a module, which is there while it runs and is taken away if it raises. -/
def runModule (importer : Importer) (d : Discovery) : Run Unit := do
  let name := d.module.name
  modify fun w => { w with modules := Table.set name d.module w.modules }
  match ← (runProgram importer name d.program).outcome with
  | .ok () =>
    modify fun w => { w with modules := w.modules.map fun (n, m) =>
      (n, if n = name then { m with isLoading := false } else m) }
  | .error e =>
    modify fun w => { w with modules := w.modules.filter (·.1 != name) }
    throw e

/-! ## Importing -/

/-- The directories in which the modules inside a parent are looked for, if it is a
package; those without a parent are looked for along the search path. -/
def directoriesFor? (w : World) (parent : String) : Option (List Path) :=
  if parent.isEmpty then some (w.path.map w.absolute)
  else (w.modules.lookup parent).bind (·.searchPath)

/-- Imports a module whose parent, if it has one, is there: it is looked for in the
parent's directories, or along the search path. -/
def importBelow (importer : Importer) (parent name : String) : Run Unit := do
  let w ← Run.world
  match directoriesFor? w parent with
  | none =>
    Run.raise "ModuleNotFoundError"
      (missingModule name ++ "; " ++ Text.quote parent ++ " is not a package")
  | some directories =>
    match discover? w name directories with
    | none => Run.raise "ModuleNotFoundError" (missingModule name)
    | some d =>
      runModule importer d
      unless parent.isEmpty do bindIn parent (splitLastDot name).2 (.module name)

/-- Imports a module of a dotted name, after the packages around it. -/
def importParts (importer : Importer) (parent : String) : (parts : List String) → Run Unit
  | [] => return ()
  | part :: rest => do
    let name := qualify parent part
    unless (← Run.world).modules.has name do importBelow importer parent name
    importParts importer name rest

/-- The longest name of a module that has been imported with some first components,
and the components after it. -/
def importedPart (w : World) (rest : List String) : (initial : List String) →
    String × List String
  | [] => ("", rest)
  | last :: before =>
    let name := joinDots (last :: before).reverse
    if w.modules.has name then (name, rest) else importedPart w (last :: rest) before

/-- Imports a module unless it has been imported. Modules import each other to a
`depth` at most. -/
def importWithin : (depth : Nat) → Importer
  | 0, _ => Run.raise "RecursionError" "maximum recursion depth exceeded"
  | depth + 1, name => do
    if name.isEmpty then Run.raise "ValueError" "Empty module name"
    else if name.startsWith "." then
      Run.raise "TypeError" ("the 'package' argument is required to perform a relative import for "
        ++ Text.quote name)
    else
      let (parent, rest) := importedPart (← Run.world) [] (dottedParts name).reverse
      importParts (importWithin depth) parent rest

/-- How deep imports can go: every module on the way is another file or directory below
an entry of the search path. -/
def importDepth (w : World) : Nat := (w.path.length + 1) * (w.files.nodes.length + 1) + 1

/-- Imports a module unless it has been imported. -/
def importModule : Importer := fun name => do
  importWithin (importDepth (← Run.world)) name

end ProviderRegistry.World
