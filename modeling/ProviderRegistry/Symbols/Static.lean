import ProviderRegistry.Diagnostic
import ProviderRegistry.FileTree
import ProviderRegistry.Settings
import ProviderRegistry.Symbols.Inheritance
import ProviderRegistry.Syntax.Statement

/-!
# The static model

The classes that the files below some roots declare, found by reading and
without running anything. A file that cannot be read or parsed is reported and
left out. Elements are made in two passes, since a marker may name a class
that is declared further on: a marker's argument refers to the element as it
is when the marker is read, which for classes further on is the element
without its own markers.
-/

namespace ProviderRegistry.Symbols

open Syntax

/-- Why a scan ended early. -/
inductive ScanFault where
  | unknownEncoding (name : String)
  /-- A root cannot be looked at. -/
  | file (error : FileError)
  deriving Repr

/-- The static model: what it is to scan and what it has found. -/
structure StaticModel where
  roots : List Path
  ignoreDirs : List String
  encoding : String
  scope : Scope := {}
  /-- The elements by qualified name, once a scan has ended well. -/
  elements : Option (Table String Element) := none

namespace StaticModel

/-! ## Finding files -/

/-- Whether a name is hidden. -/
def isHidden (name : String) : Bool := name.startsWith "."

/-- Whether a scan enters the directories of a relative path and reads its file. -/
def isScanned (ignoreDirs components : List String) : Bool :=
  let file := components.getLastD ""
  (components.dropLast.all fun d => !ignoreDirs.contains d && !isHidden d) &&
    !isHidden file && file.endsWith ".py"

/-- The relative paths of the files below a root that a scan reads, sorted. -/
def filesBelow (tree : FileTree) (root : Path) (ignoreDirs : List String) : List (List String) :=
  match tree.locate root with
  | .error _ => []
  | .ok l =>
    let found := tree.nodes.filterMap fun (m, node) =>
      match node with
      | .directory => none
      | .file _ =>
        let components := m.drop l.length
        if l.isPrefixOf m && isScanned ignoreDirs components then some components else none
    found.mergeSort fun a b => decide ("/".intercalate a ≤ "/".intercalate b)

/-- The name of the module that a relative path holds, and whether it is a package;
nothing when its components are not all identifiers. -/
def moduleName? (components : List String) : Option (String × Bool) :=
  let stem := ((components.getLastD "").dropEnd 3).toString
  let isPackage := stem == "__init__"
  let parts := if isPackage then components.dropLast else components.dropLast ++ [stem]
  if parts.isEmpty || !(parts.all fun p => Text.isIdentifier p.toList) then none
  else some (joinDots parts, isPackage)

/-! ## Reading files -/

/-- What reading a file gives: its statements, or a report, or the end of the scan. -/
def readModule (tree : FileTree) (path : Path) (encoding : String) :
    Except ScanFault (Except String (List Stmt)) :=
  match tree.readText path encoding with
  | .error (.unknownEncoding name) => .error (.unknownEncoding name)
  | .error e => .ok (.error e.message)
  | .ok text =>
    match parseModule? text with
    | none => .ok (.error "SyntaxError")
    | some statements => .ok (.ok statements)

/-- Reads the file of a module that has not been read yet. -/
def load (model : StaticModel) (tree : FileTree) (root : Path) (components : List String)
    (reports : Reports) : Except ScanFault (StaticModel × Reports) :=
  match moduleName? components with
  | none => .ok (model, reports)
  | some (name, isPackage) =>
    if model.scope.modules.has name then .ok (model, reports)
    else
      let path : Path := ⟨root.root, root.parts ++ components⟩
      match readModule tree path model.encoding with
      | .error fault => .error fault
      | .ok (.error reason) =>
        .ok (model, reports.error ("Could not parse " ++ path.text ++ ": " ++ reason))
      | .ok (.ok statements) =>
        let m := SourceModule.ofStatements name path isPackage statements
        .ok ({ model with scope := model.scope.add m }, reports)

/-- Reads files one after another, up to one that ends the scan. -/
def loadAll (tree : FileTree) (root : Path) :
    List (List String) → StaticModel → Reports → StaticModel × Reports × Except ScanFault Unit
  | [], model, reports => (model, reports, .ok ())
  | components :: rest, model, reports =>
    match model.load tree root components reports with
    | .error fault => (model, reports, .error fault)
    | .ok (model, reports) => loadAll tree root rest model reports

/-- Reads the files below roots one after another. A root that is not there is
reported. -/
def loadRoots (tree : FileTree) :
    List Path → StaticModel → Reports → StaticModel × Reports × Except ScanFault Unit
  | [], model, reports => (model, reports, .ok ())
  | root :: rest, model, reports =>
    match tree.isDirectory root with
    | .error e => (model, reports, .error (.file e))
    | .ok false =>
      loadRoots tree rest model (reports.error ("Source root not found: " ++ root.text))
    | .ok true =>
      match loadAll tree root (filesBelow tree root model.ignoreDirs) model reports with
      | (model, reports, .error fault) => (model, reports, .error fault)
      | (model, reports, .ok ()) => loadRoots tree rest model reports

/-! ## Elements without markers -/

/-- The classes that make a class an interface when it derives from them. -/
def protocolBases : List String := ["typing.Protocol", "typing_extensions.Protocol"]

/-- The decorators that make a class final. -/
def finalDecorators : List String := ["typing.final", "typing_extensions.final"]

/-- The answers about inheritance found so far. -/
structure Answers where
  abstract : Table String (List String) := []
  enumeration : Table String Bool := []

/-- The element of a class, without its markers. -/
def bareElement (scope : Scope) (name : String) (d : Declared) (answers : Answers) :
    Element × Answers :=
  let supertypes := scope.supertypes d
  let depth := scope.inheritanceDepth
  let (kind, enumeration) : ElementKind × Table String Bool :=
    if supertypes.any protocolBases.contains then (.interface, answers.enumeration)
    else match scope.isEnumeration depth name answers.enumeration with
      | (true, known) => (.enumeration, known)
      | (false, known) => (.ordinary, known)
  let (members, abstract) := scope.abstractMembers depth name answers.abstract
  let isFinal := d.declaration.decorators.any fun e =>
    e.dotted?.any fun written => finalDecorators.contains (scope.resolve d.module written)
  ({ module := d.module.name
     qualname := d.declaration.qualname
     kind
     modifiers := { abstract := !members.isEmpty, final := isFinal }
     supertypes
     isPackage := d.module.isPackage
     sourcePath := some d.module.path
     line := some d.declaration.line }, ⟨abstract, enumeration⟩)

/-- The elements of all classes, without their markers. -/
def bareElements (scope : Scope) : Table String Element :=
  (scope.classes.foldl (fun (elements, answers) (name, d) =>
    let (element, answers) := bareElement scope name d answers
    (elements ++ [(name, element)], answers)) (([] : Table String Element), ({} : Answers))).1

/-! ## Markers -/

/-- The element with a qualified name, or with the name that it leads to. -/
def lookUp (scope : Scope) (elements : Table String Element) (name : String) :
    Option Element :=
  elements.lookup name <|> elements.lookup (scope.canonical name)

/-- The element that a qualified name refers to, declared or not. -/
def refer (scope : Scope) (elements : Table String Element) (name : String) : Element :=
  (lookUp scope elements name).getD (.undeclared name)

/-- The value of a marker's argument: a constant, or the class that a name refers to.
Other arguments have no value. -/
def argument? (scope : Scope) (elements : Table String Element) (m : SourceModule) (e : Expr) :
    Option MarkerValue :=
  match e.stripped with
  | .constant l => some (.literal l)
  | .name id => some (.type (refer scope elements (scope.resolve m id.text)))
  | .member value attr =>
    (Expr.member value attr).dotted?.map fun name =>
      .type (refer scope elements (scope.resolve m name))
  | _ => none

/-- The marker that a decorator is, if its name is a dotted one: the first argument
by position is its value, and the others count by name. -/
def annotation? (scope : Scope) (elements : Table String Element) (m : SourceModule)
    (decorator : Expr) : Option Annotation :=
  let argument := argument? scope elements m
  match decorator.stripped with
  | .call function args named =>
    function.dotted?.map fun name =>
      let first : Table String MarkerValue :=
        ((args.head?.bind argument).map fun v => ("value", v)).toList
      let arguments := named.foldl (fun table (key, e) =>
        match key, argument e with
        | some key, some v => Table.set key v table
        | _, _ => table) first
      { annotationType := scope.resolve m name, arguments }
  | e => e.dotted?.map fun name => { annotationType := scope.resolve m name, arguments := [] }

/-- The elements with the markers of one class. -/
def mark (scope : Scope) (elements : Table String Element) (name : String) (d : Declared) :
    Table String Element :=
  match elements.lookup name with
  | none => elements
  | some element =>
    let annotations := d.declaration.decorators.filterMap (annotation? scope elements d.module)
    Table.set name { element with annotations } elements

/-- The elements of all classes. -/
def elementsOf (scope : Scope) : Table String Element :=
  scope.classes.foldl (fun elements (name, d) => mark scope elements name d) (bareElements scope)

/-! ## Scanning -/

/-- The model after a scan, which is made only once unless it ends early. -/
def scan (model : StaticModel) (tree : FileTree) (reports : Reports) :
    StaticModel × Reports × Except ScanFault Unit :=
  if model.elements.isSome then (model, reports, .ok ())
  else
    match loadRoots tree model.roots model reports with
    | (model, reports, .error fault) => (model, reports, .error fault)
    | (model, reports, .ok ()) =>
      ({ model with elements := some (elementsOf model.scope) }, reports, .ok ())

/-- A model that has scanned nothing yet. -/
def new (settings : Settings) (roots : List Path) (ignoreDirs : Option (List String) := none)
    (encoding : Option String := none) : StaticModel where
  roots
  ignoreDirs := ignoreDirs.getD settings.ignoreDirs
  encoding := Settings.orDefault encoding settings.encoding

/-- The elements found by the scan, in the order of their declarations. -/
def found (model : StaticModel) : Table String Element := model.elements.getD []

/-- The element with a qualified name, or with the name that it leads to. -/
def element? (model : StaticModel) (name : String) : Option Element :=
  lookUp model.scope model.found name

end StaticModel

end ProviderRegistry.Symbols
