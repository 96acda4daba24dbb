import ProviderRegistry.Literal.Display
import ProviderRegistry.World.State

/-!
# Described modules as text

The text of a described module: what stands in its file. Whatever reads files
without running them sees the same classes in it that importing the module
makes. Modules that are referred to are imported right before the statement
that refers to them.
-/

namespace ProviderRegistry.World

/-- Lines moved to the right by one level. -/
def indented (lines : List String) : List String :=
  lines.map fun l => if l.isEmpty then l else "    " ++ l

/-- A reference as an expression. -/
def Ref.text : Ref → String
  | .qualified module attributes => joinDots (module :: attributes)
  | .named name attributes => joinDots (name :: attributes)

/-- The import that a reference needs. -/
def Ref.imports : Ref → List String
  | .qualified module _ => ["import " ++ module]
  | .named _ _ => []

/-- A body, which a statement stands in for when it is empty. -/
def bodyText (lines : List String) : List String := if lines.isEmpty then ["pass"] else lines

/-- A method with its lines. -/
def methodText (name parameters : String) (lines : List String) : List String :=
  ("def " ++ name ++ "(" ++ parameters ++ "):") :: indented (bodyText lines)

namespace ClassDescription

/-- The arguments of a marker. -/
def markerText (call : MarkerCall) : String :=
  let value := match call.value with
    | none => []
    | some (.literal l) => ["value=" ++ l.display]
    | some (.ref r) => ["value=" ++ r.text]
  let factory := match call.generateFactory with
    | none => []
    | some l => ["generate_factory=" ++ l.display]
  "@service_provider(" ++ ", ".intercalate (value ++ factory) ++ ")"

/-- The decorators of a class. -/
def decorators (c : ClassDescription) : List String :=
  (c.marker.map markerText).toList ++ (if c.final then ["@typing.final"] else []) ++
    if c.runtimeCheckable then ["@typing.runtime_checkable"] else []

/-- The imports that a class needs before its statement. -/
def imports (c : ClassDescription) : List String :=
  let marked := match c.marker.bind (·.value) with
    | some (.ref r) => r.imports
    | _ => []
  marked ++ c.bases.flatMap (·.imports) ++ c.attributes.flatMap (·.2.imports)

/-- The constructor of a class. -/
def constructionText : Construction → List String
  | .needsArgument => methodText "__init__" "self, argument" []
  | .raises kind => methodText "__init__" "self" ["raise " ++ kind]

/-- The accessor of a class. -/
def accessorText (a : Accessor) : List String :=
  let lines := match a.outcome with
    | .nothing => []
    | .makes r => r.imports ++ ["return " ++ r.text ++ "()"]
    | .raises kind => ["raise " ++ kind]
  match a.kind with
  | .static => "@staticmethod" :: methodText "get_instance" "" lines
  | .classMethod => "@classmethod" :: methodText "get_instance" "cls" lines
  | .ordinary => methodText "get_instance" "self" lines

/-- The members of a class before its nested classes. -/
def memberLines (c : ClassDescription) : List String :=
  c.abstract.flatMap (fun name => "@abc.abstractmethod" :: methodText name "self" []) ++
    c.methods.flatMap (fun name => methodText name "self" []) ++
    c.attributes.map (fun (name, r) => name ++ " = " ++ r.text) ++
    c.members.zipIdx.map fun (name, i) => name ++ " = " ++ toString (i + 1)

mutual

/-- A class statement. -/
def lines : ClassDescription → List String
  | c@⟨name, bases, _, _, _, _, nested, _, _, _, construction, accessor⟩ =>
    let head := "class " ++ name ++
      (if bases.isEmpty then "" else "(" ++ ", ".intercalate (bases.map Ref.text) ++ ")") ++ ":"
    let body := memberLines c ++ nestedLines nested ++
      ((construction.map constructionText).getD []) ++ ((accessor.map accessorText).getD [])
    imports c ++ decorators c ++ head :: indented (bodyText body)

/-- The class statements in the body of a class. -/
def nestedLines : List ClassDescription → List String
  | [] => []
  | c :: rest => lines c ++ nestedLines rest

end

end ClassDescription

/-- A statement. -/
def Statement.lines : Statement → List String
  | .declare c => c.lines
  | .bindRef name r => r.imports ++ [name ++ " = " ++ r.text]
  | .bindLiteral name value => [name ++ " = " ++ value.display]
  | .importModule name => ["import " ++ name]
  | .raises kind message => ["raise " ++ kind ++ "(" ++ Text.quote message ++ ")"]
  | .bindLocalClass name =>
    methodText "_make" "" (("class " ++ name ++ ":") :: indented ["pass"] ++ ["return " ++ name]) ++
      [name ++ " = _make()"]

/-- The text of a module with some statements. -/
def programText (body : List Statement) : String :=
  String.join ((["import abc", "import enum", "import typing", "",
    "from services import service_provider", ""] ++ body.flatMap (·.lines)).map (· ++ "\n"))

namespace ModuleDescription

/-- The path of a module's file, below a root. -/
def path (m : ModuleDescription) (root : Path) : Path :=
  let directory := m.name.splitOn "." |>.foldl Path.child root
  if m.isPackage then directory.child "__init__.py"
  else directory.parent.child (directory.name ++ ".py")

end ModuleDescription

/-- A world with the file of a described module below a root. -/
def describe (w : World) (root : Path) (m : ModuleDescription) : World :=
  let bytes := (programText m.body).toUTF8.toList
  { w with
    files := w.files.placeAt (m.path root) (.file bytes)
    programs := Table.set bytes m.body w.programs }

end ProviderRegistry.World
