import ProviderRegistry.DottedName
import ProviderRegistry.Syntax.Token

/-!
# Syntax trees

The part of a module's syntax that says which classes it declares and what
their names mean: class statements, functions, imports, assignments and the
blocks that hold them. Of expressions, names, attributes, subscripts, calls
and constants are kept; everything else is one opaque expression. Parentheses
are kept because they decide what may stand on the left of an assignment.
-/

namespace ProviderRegistry.Syntax

/-- A name with dots between its components, of which there is at least one. -/
structure DottedName where
  first : Identifier
  rest : List Identifier
  deriving DecidableEq, Repr

/-- A dotted name as text. -/
def DottedName.text (n : DottedName) : String := joinDots ((n.first :: n.rest).map (·.text))

/-- An expression. -/
inductive Expr where
  | name (id : Identifier)
  | member (value : Expr) (attr : Identifier)
  | subscript (value : Expr)
  | constant (value : Literal)
  /-- A call with its positional and named arguments, a named argument without a
  name being an unpacked mapping. -/
  | call (function : Expr) (args : List Expr) (keywords : List (Option String × Expr))
  | starred (value : Expr)
  /-- A display in parentheses or, unless `bracketed`, a bare list with commas. -/
  | tuple (items : List Expr) (bracketed : Bool)
  | list (items : List Expr)
  | parenthesized (inner : Expr)
  /-- Any other expression, of which nothing is read. -/
  | opaqueTerm
  deriving Inhabited, Repr

/-- A name as it is imported: the name and the one it is bound to, if another. -/
structure Alias (ν : Type) where
  name : ν
  asName : Option Identifier
  deriving DecidableEq, Repr

/-- A statement. -/
inductive Stmt where
  | classDef (line : Nat) (name : Identifier) (bases : List Expr) (decorators : List Expr)
      (body : List Stmt)
  | functionDef (name : Identifier) (decorators : List Expr) (body : List Stmt)
  | importNames (names : List (Alias DottedName))
  /-- An import from a module, `level` packages up, of some names or, without them, of
  all. -/
  | importFrom (module : Option DottedName) (names : Option (List (Alias Identifier)))
      (level : Nat)
  | assign (targets : List Expr) (value : Expr)
  | annotated (target : Expr) (value : Option Expr)
  | ifElse (body orelse : List Stmt)
  | tryExcept (body : List Stmt) (handlers : List (List Stmt)) (orelse final : List Stmt)
  /-- Any other compound statement: the statements directly in it, and those of
  the parts that group statements. -/
  | compound (direct : List Stmt) (grouped : List (List Stmt)) (after : List Stmt)
  | expression (value : Expr)
  /-- Any other statement, of which nothing is read. -/
  | simple
  deriving Inhabited, Repr

namespace Expr

/-- The expression without the parentheses around it. -/
def stripped : Expr → Expr
  | parenthesized inner => inner.stripped
  | e => e

/-- The dotted name that an expression spells: a name, an attribute of one, or
what such an expression is subscripted as. -/
def dotted? : Expr → Option String
  | name id => some id.text
  | member value attr => value.dotted?.map (· ++ "." ++ attr.text)
  | subscript value => value.dotted?
  | parenthesized inner => inner.dotted?
  | _ => none

end Expr

end ProviderRegistry.Syntax
