import ProviderRegistry.Text.Lines

/-!
# Paths

A path is its root, if it has one, and its components. Writing a path as text
and reading it drops empty components and single dots but keeps double dots,
which only the file tree can resolve.
-/

namespace ProviderRegistry

/-- What a path starts from. Two leading slashes, and no more, are a root of
their own. -/
inductive Path.Root where
  | none
  | single
  | double
  deriving DecidableEq, Repr

/-- A path: its root and its components, none of them empty or a single dot. -/
structure Path where
  root : Path.Root
  parts : List String
  deriving DecidableEq, Repr

namespace Path

/-- The text of a root. -/
def Root.text : Root → String
  | none => ""
  | single => "/"
  | double => "//"

/-- The components that a text names. -/
def componentsOf (text : List Char) : List String :=
  let pieces := Text.pieces (· == '/') text
  (pieces.filter fun piece => piece != [] && piece != ['.']).map String.ofList

/-- The root that a text starts with. -/
def rootOf : List Char → Root
  | '/' :: '/' :: '/' :: _ => .single
  | '/' :: '/' :: _ => .double
  | '/' :: _ => .single
  | _ => .none

/-- Reads a path. -/
@[irreducible] def ofString (text : String) : Path := ⟨rootOf text.toList, componentsOf text.toList⟩

/-- The path as text, which for the empty path is a dot. -/
def text (p : Path) : String :=
  match p.root, p.parts with
  | .none, [] => "."
  | root, parts => root.text ++ "/".intercalate parts

instance : ToString Path := ⟨text⟩

/-- Whether a path starts from a root. -/
def isAbsolute (p : Path) : Bool := p.root != .none

/-- Whether a component holds a null character. -/
def hasNull (p : Path) : Bool := p.parts.any (·.toList.contains (Char.ofNat 0))

/-- The path `p` below this one; one that starts from a root stands for itself. -/
def append (base p : Path) : Path :=
  if p.isAbsolute then p else ⟨base.root, base.parts ++ p.parts⟩

instance : Append Path := ⟨append⟩

/-- The path with one more component, or several when the text holds slashes. -/
def child (base : Path) (name : String) : Path := base ++ ofString name

/-- The path without its last component. -/
def parent (p : Path) : Path := ⟨p.root, p.parts.dropLast⟩

/-- The last component. -/
def name (p : Path) : String := p.parts.getLastD ""

end Path

end ProviderRegistry
