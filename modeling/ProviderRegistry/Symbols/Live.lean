import ProviderRegistry.Diagnostic
import ProviderRegistry.World.Import

/-!
# The live model

The classes that some modules declare, found by importing the modules and
looking at the classes that are there. Packages are walked with everything in
them. A module that cannot be imported is reported and left out, except that
an exception raised while a package is walked ends the scan, unless it says
that something could not be imported; what was found before stays found.
-/

namespace ProviderRegistry.Symbols

open World

/-- The live model: what it is to import and what it has found. -/
structure LiveModel where
  moduleNames : List String
  /-- The directories that are searched first while importing. -/
  searchPath : List Path := []
  /-- Whether packages are walked. -/
  recursive : Bool := true
  /-- The classes by qualified name, from the start of the scan on. -/
  types : Option (Table String ClassId) := none
  /-- The contracts that markers name, as far as markers have been read. -/
  contracts : Table String ClassId := []
  /-- The elements made so far. -/
  elements : Table String Element := []

/-! ## Elements -/

/-- The kind of a class. -/
def liveKind (classes : Classes) (id : ClassId) (c : LiveClass) : ElementKind :=
  if c.isProtocol then .interface
  else if classes.derivesFrom id "enum.Enum" then .enumeration
  else .ordinary

/-- The element of a class, without its marker. -/
def liveElement (w : World) (id : ClassId) (c : LiveClass) : Element where
  module := c.module
  qualname := c.qualname
  kind := liveKind w.classes id c
  modifiers := {
    abstract := !c.abstractMembers.isEmpty
    final := (w.classes.lineage id).any (·.isFinal) }
  supertypes := (c.bases.filterMap w.class?).map (·.qualifiedName)
  isPackage := w.isPackage c.module
  sourcePath := (w.modules.lookup c.module).bind (·.file)

/-- The name of the marker that live classes carry. -/
def liveMarkerName : String := "services.service_provider"

/-- The value of a marker, if it is a class or a text. -/
def markerValue? (w : World) : Object → Option MarkerValue
  | .type id => (w.class? id).map fun c => .type (liveElement w id c)
  | .literal (.str s) => some (.literal (.str s))
  | _ => none

/-- A marker as an annotation. -/
def liveMark (w : World) (m : Marker) : Annotation where
  annotationType := liveMarkerName
  arguments := ("generate_factory", .literal m.generateFactory) ::
    ((markerValue? w m.value).map ("value", ·)).toList

namespace LiveModel

/-- The model with the contract that a marker names. -/
def addContract (model : LiveModel) (w : World) (m : Marker) : LiveModel :=
  match m.value with
  | .type id => match w.class? id with
    | some c => { model with contracts := model.contracts.setMissing c.qualifiedName id }
    | none => model
  | _ => model

/-- The element of a class, which is made once for a qualified name. -/
def element (model : LiveModel) (w : World) (id : ClassId) (c : LiveClass) :
    LiveModel × Element :=
  match model.elements.lookup c.qualifiedName with
  | some e => (model, e)
  | none =>
    let model := (c.marker.map (model.addContract w)).getD model
    let e := { liveElement w id c with annotations := (c.marker.map (liveMark w)).toList }
    ({ model with elements := Table.set c.qualifiedName e model.elements }, e)

/-- The classes found, in order. -/
def found (model : LiveModel) : Table String ClassId := model.types.getD []

/-- The element of a class by its number. -/
def elementOf? (model : LiveModel) (w : World) (id : ClassId) : LiveModel × Option Element :=
  match w.class? id with
  | none => (model, none)
  | some c =>
    let (model, e) := model.element w id c
    (model, some e)

/-- The elements of all classes found, in order. -/
def elementsOf (model : LiveModel) (w : World) : LiveModel × List Element :=
  model.found.foldl (fun (model, elements) (_, id) =>
    let (model, e) := model.elementOf? w id
    (model, elements ++ e.toList)) (model, [])

end LiveModel

/-! ## Scanning -/

/-- What a scan works on. -/
structure Survey where
  model : LiveModel
  world : World
  reports : Reports

/-- A part of a scan. -/
abbrev Surveying := ExceptT Raised (StateM Survey)

namespace Surveying

/-- Runs a computation on the world. -/
def ofRun (action : Run α) : Surveying α := fun s =>
  let (result, w) := action.run s.world
  (result, { s with world := w })

/-- The world as it is. -/
def world : Surveying World := return (← get).world

/-- The classes that stand in the body of a class as its nested ones, and theirs. A class
is made after those in its body, so that its number bounds how deep they go. -/
def nestedClasses (classes : Classes) : (depth : Nat) → ClassId → List ClassId
  | 0, _ => []
  | depth + 1, outer => match classes[outer]? with
    | none => []
    | some c => c.attributes.flatMap fun (_, value) =>
      match value with
      | .object (.type id) =>
        if (classes[id]?).any fun d => d.qualname == c.qualname ++ "." ++ d.name then
          id :: nestedClasses classes depth id
        else []
      | _ => []

/-- The classes that a module declares, each with its nested ones after it. -/
def classesOf (w : World) (module : String) : List ClassId :=
  (w.namesOf module).flatMap fun (_, o) =>
    match o with
    | .type id => match w.class? id with
      | some c =>
        if c.module = module && !c.qualname.toList.contains '.' then
          id :: nestedClasses w.classes (id + 1) id
        else []
      | none => []
    | _ => []

/-- Adds the classes that a module declares; a qualified name keeps its first class. -/
def collect (module : String) : Surveying Unit := do
  let w ← world
  let types := (classesOf w module).foldl (fun types id =>
    match w.class? id with
    | some c => Table.setMissing types c.qualifiedName id
    | none => types) (← get).model.found
  modify fun s => { s with model := { s.model with types := some types } }

/-- Imports a module and adds its classes, or reports that it cannot be imported: whether
it could. -/
def importAndCollect (name : String) : Surveying Bool := do
  match ← ofRun (importModule name).outcome with
  | .ok () =>
    collect name
    return true
  | .error e =>
    unless e.isA "Exception" do throw e
    modify fun s => { s with
      reports := s.reports.error ("Could not import " ++ name ++ ": " ++ e.message) }
    return false

/-! ### Walking packages -/

/-- The name of the module that a file holds. -/
def moduleOfFile? (file : String) : Option String :=
  if file.endsWith ".py" then some (file.dropEnd 3).toString else none

/-- The names in a directory, sorted. -/
def listing (w : World) (p : Path) : List String :=
  match w.files.locate p with
  | .error _ => []
  | .ok l => ((w.files.entries l).map (·.1)).mergeSort

/-- The module that an entry of a directory is, and whether it is a package: a file of
a module's name, or a directory that holds the file of a package. -/
def moduleOfEntry? (w : World) (directory : Path) (entry : String) : Option (String × Bool) :=
  let inner : Path := ⟨directory.root, directory.parts ++ [entry]⟩
  match moduleOfFile? entry with
  | some name =>
    if name.isEmpty || name == "__init__" || name.toList.contains '.' then none else some (name, false)
  | none =>
    if !entry.toList.contains '.' && isDirectory w inner &&
        (listing w inner).any (moduleOfFile? · == some "__init__") then some (entry, true)
    else none

/-- The modules directly in some directories, each name once. -/
def modulesIn (w : World) (directories : List Path) : Table String Bool :=
  directories.foldl (fun modules directory =>
    (listing w directory).foldl (fun modules entry =>
      match moduleOfEntry? w directory entry with
      | some (name, isPackage) => modules.setMissing name isPackage
      | none => modules) modules) []

/-- The directories of a package that has been imported. -/
def directoriesOf (w : World) (package : String) : List Path :=
  ((w.modules.lookup package).bind (·.searchPath)).getD []

/-- What is done for one name after another, until one raises. -/
def flatMapUntil (f : α → Surveying (List β)) : List α → Surveying (List β)
  | [] => return []
  | a :: rest => do return (← f a) ++ (← flatMapUntil f rest)

/-- The names of all modules in a package, to a `depth` at most. The packages in it are
imported on the way. -/
def walk : (depth : Nat) → (package : String) → Surveying (List String)
  | 0, _ => return []
  | depth + 1, package => do
    let w ← world
    flatMapUntil (fun (name, isPackage) => do
      let inner := package ++ "." ++ name
      unless isPackage do return [inner]
      match ← ofRun (importModule inner).outcome with
      | .error e =>
        unless e.isA "ImportError" do throw e
        return [inner]
      | .ok () => return inner :: (← walk depth inner)) (modulesIn w (directoriesOf w package))

/-- Imports a module and, if it is a package, the modules in it. -/
def importAll (recursive : Bool) (name : String) : Surveying Unit := do
  if ← importAndCollect name then
    let w ← world
    if recursive && w.isPackage name then
      let inner ← walk (w.files.nodes.length + 1) name
      inner.mergeSort.forM fun name => discard (importAndCollect name)

/-- Puts directories in front of the search path while something runs. -/
def searchingFirst (directories : List Path) (action : Surveying α) : Surveying α := fun s =>
  let path := s.world.path
  let added := directories.filter (!path.contains ·)
  let (result, s) := action { s with world := { s.world with path := added ++ path } }
  (result, { s with world := { s.world with path } })

/-- Imports everything that is to be imported, unless that has been started. -/
def scan : Surveying Unit := do
  let model := (← get).model
  if model.types.isNone then
    modify fun s => { s with model := { s.model with types := some [] } }
    searchingFirst model.searchPath (model.moduleNames.forM (importAll model.recursive))

end Surveying

end ProviderRegistry.Symbols
