import ProviderRegistry.Symbols.Scope

/-!
# Inheritance

Which classes are abstract and which are enumerations, by what they and their
bases declare. Both questions are answered once for every class and kept. A
class whose answer is being worked out counts as having none of the property,
which is what ends the search when classes inherit from each other in a
circle.
-/

namespace ProviderRegistry.Symbols

open Syntax

/-- The names of decorators that make a member abstract, wherever they come from. -/
def abstractDecorators : List String :=
  ["abstractmethod", "abstractproperty", "abstractclassmethod", "abstractstaticmethod"]

/-- Whether decorators make a member abstract. -/
def isAbstractMember (decorators : List Expr) : Bool :=
  decorators.any fun d =>
    d.dotted?.any fun name => abstractDecorators.contains (splitLastDot name).2

/-- The members that a class body declares, without those of nested blocks. -/
structure Members where
  abstract : List String := []
  concrete : List String := []

/-- The name that an assignment target is, if it is one. -/
def boundName? (target : Expr) : Option String :=
  match target.stripped with
  | .name id => some id.text
  | _ => none

/-- The members with those that a statement declares. -/
def Members.add (m : Members) : Stmt → Members
  | .functionDef name decorators _ =>
    if isAbstractMember decorators then { m with abstract := m.abstract ++ [name.text] }
    else { m with concrete := m.concrete ++ [name.text] }
  | .assign targets _ => { m with concrete := m.concrete ++ targets.filterMap boundName? }
  | .annotated target (some _) => { m with concrete := m.concrete ++ (boundName? target).toList }
  | _ => m

/-- The members that a class declares. -/
def ClassDeclaration.members (d : ClassDeclaration) : Members := d.body.foldl .add {}

namespace Scope

variable (scope : Scope)

/-- The members of a class that are abstract: its own, and those of its bases that
it does not replace. Answers found before are in `known`. -/
def abstractMembers : (depth : Nat) → String → Table String (List String) →
    List String × Table String (List String)
  | 0, _, known => ([], known)
  | depth + 1, name, known =>
    match known.lookup name, scope.classes.lookup name with
    | some answer, _ => (answer, known)
    | none, none => ([], known)
    | none, some d =>
      let members := d.declaration.members
      let (inherited, known) := (scope.supertypes d).foldl
        (fun (inherited, known) base =>
          let (more, known) := abstractMembers depth base known
          (inherited ++ more, known)) ([], Table.set name [] known)
      let answer := members.abstract ++ inherited.filter fun m => !members.concrete.contains m
      (answer, Table.set name answer known)

/-- The enumerations that others derive from. -/
def enumerationBases : List String :=
  ["enum.Enum", "enum.IntEnum", "enum.StrEnum", "enum.Flag", "enum.IntFlag"]

/-- Whether a class is an enumeration: one of its bases is, and the first that is
ends the search. Answers found before are in `known`. -/
def isEnumeration : (depth : Nat) → String → Table String Bool → Bool × Table String Bool
  | 0, _, known => (false, known)
  | depth + 1, name, known =>
    match known.lookup name, scope.classes.lookup name with
    | some answer, _ => (answer, known)
    | none, none => (false, known)
    | none, some d =>
      let (answer, known) := (scope.supertypes d).foldl
        (fun (answer, known) base =>
          if answer then (true, known)
          else if enumerationBases.contains base then (true, known)
          else isEnumeration depth base known) (false, Table.set name false known)
      (answer, Table.set name answer known)

/-- How deep a search through the bases can go: every class is entered once. -/
def inheritanceDepth : Nat := scope.classes.length + 1

end Scope

end ProviderRegistry.Symbols
