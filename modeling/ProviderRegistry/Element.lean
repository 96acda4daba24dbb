import ProviderRegistry.DottedName
import ProviderRegistry.Literal
import ProviderRegistry.Path

/-!
# Type elements

What is known of a class: where it is declared, what kind of class it is, what
it inherits from and which markers it carries. A marker's argument is a
constant or another class, so elements and markers are defined together.
-/

namespace ProviderRegistry

/-- The kind of a class. -/
inductive ElementKind where
  /-- A class like any other. -/
  | ordinary
  /-- A class that only states a protocol. -/
  | interface
  | enumeration
  /-- A class that is referred to but not declared where it was looked for. -/
  | undeclared
  deriving DecidableEq, Repr

/-- The modifiers of a class. -/
structure Modifiers where
  abstract : Bool := false
  final : Bool := false
  deriving DecidableEq, Repr

mutual

/-- The value of a marker's argument. -/
inductive MarkerValue where
  | literal (l : Literal)
  | type (element : Element)

/-- A marker on a class: its qualified name and the arguments given to it. -/
structure Annotation where
  annotationType : String
  arguments : List (String × MarkerValue)

/-- A class. -/
structure Element where
  /-- The module that declares the class; empty when the class has no module. -/
  module : String
  /-- The name inside the module. -/
  qualname : String
  kind : ElementKind := .ordinary
  modifiers : Modifiers := {}
  annotations : List Annotation := []
  /-- The qualified names of the direct base classes. -/
  supertypes : List String := []
  /-- Whether the declaring module is a package. -/
  isPackage : Bool := false
  sourcePath : Option Path := none
  line : Option Int := none

end

instance : Inhabited Element := ⟨{ module := "", qualname := "" }⟩

namespace ElementKind

/-- The word for a kind. -/
def label : ElementKind → String
  | ordinary => "class"
  | interface => "interface"
  | enumeration => "enum"
  | undeclared => "other"

/-- The kind that a word stands for. -/
def ofLabel? (word : String) : Option ElementKind :=
  [ordinary, interface, enumeration, undeclared].find? (·.label == word)

end ElementKind

namespace Modifiers

/-- The words for the modifiers, sorted. -/
def labels (m : Modifiers) : List String :=
  (if m.abstract then ["abstract"] else []) ++ (if m.final then ["final"] else [])

/-- The modifiers with the one that a word stands for. -/
def insertLabel? (m : Modifiers) (word : String) : Option Modifiers :=
  if word = "abstract" then some { m with abstract := true }
  else if word = "final" then some { m with final := true }
  else none

end Modifiers

/-- Whether a marker's argument counts as true; a class does. -/
def MarkerValue.truthy : MarkerValue → Bool
  | .literal l => l.truthy
  | .type _ => true

/-- The argument of a marker with the given name. -/
def Annotation.value? (a : Annotation) (name : String) : Option MarkerValue :=
  a.arguments.lookup name

namespace Element

/-- The name of a class with its module. It is also the name written to registry
files. -/
def qualifiedName (e : Element) : String := qualify e.module e.qualname

/-- The last component of the name. -/
def simpleName (e : Element) : String := (splitLastDot e.qualname).2

/-- The package that the class belongs to: the declaring module if that is a
package, else the package of the declaring module. -/
def packageName (e : Element) : String :=
  if e.isPackage then e.module else (splitLastDot e.module).1

/-- The first marker whose name is one of the given ones. -/
def annotation? (e : Element) (markers : List String) : Option Annotation :=
  e.annotations.find? fun a => markers.contains a.annotationType

/-- Where the class is declared: the path and line as far as known, else its
name. -/
def location (e : Element) : String :=
  match e.sourcePath, e.line with
  | none, _ => e.qualifiedName
  | some path, none => path.text
  | some path, some line => path.text ++ ":" ++ toString line

/-- The class that a qualified name refers to when nothing declares it. -/
def undeclared (qualifiedName : String) : Element :=
  let (module, qualname) := splitLastDot qualifiedName
  { module, qualname, kind := .undeclared }

end Element

end ProviderRegistry
