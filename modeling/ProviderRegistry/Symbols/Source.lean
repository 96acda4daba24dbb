import ProviderRegistry.DottedName
import ProviderRegistry.Path
import ProviderRegistry.Syntax.Blocks
import ProviderRegistry.Table

/-!
# Source modules

What a module declares: the names that its imports bind, wherever in the
module they stand, and its classes. Classes count at the top level, in other
classes, and under conditions and handlers, but not inside functions, loops
and contexts.
-/

namespace ProviderRegistry.Symbols

open Syntax

/-- A class statement. -/
structure ClassDeclaration where
  /-- The name inside the module. -/
  qualname : String
  line : Nat
  bases : List Expr
  decorators : List Expr
  body : List Stmt

mutual

/-- The classes that a statement declares inside the class `enclosing`, or at the
top level when that is empty. -/
def classesOf (enclosing : String) : Stmt → List ClassDeclaration
  | .classDef line name bases decorators body =>
    let qualname := qualify enclosing name.text
    ⟨qualname, line, bases, decorators, body⟩ :: classesIn qualname body
  | .ifElse body orelse => classesIn enclosing body ++ classesIn enclosing orelse
  | .tryExcept body handlers orelse final =>
    classesIn enclosing body ++ classesIn enclosing orelse ++ classesIn enclosing final ++
      classesInGroups enclosing handlers
  | _ => []

/-- The classes that statements declare. -/
def classesIn (enclosing : String) : List Stmt → List ClassDeclaration
  | [] => []
  | s :: rest => classesOf enclosing s ++ classesIn enclosing rest

/-- The classes that the statements of handlers declare. -/
def classesInGroups (enclosing : String) : List (List Stmt) → List ClassDeclaration
  | [] => []
  | body :: rest => classesIn enclosing body ++ classesInGroups enclosing rest

end

/-- A module that has been read. -/
structure SourceModule where
  name : String
  path : Path
  /-- Whether the module is a package. -/
  isPackage : Bool
  /-- The names that imports bind, each with the qualified name of what it is bound
  to. -/
  imports : Table String String
  classes : List ClassDeclaration

namespace SourceModule

/-- The package that relative imports start from. -/
def packageOf (name : String) (isPackage : Bool) : String :=
  if isPackage then name else (splitLastDot name).1

/-- The components of a name, of which an empty name has none. -/
def componentsOf (name : String) : List String := if name.isEmpty then [] else dottedParts name

/-- The module that names are imported from, `level` packages up from `package`. The
first level is the package itself, and one too many ends at the top. -/
def importBase (package : String) (module : Option String) (level : Nat) : String :=
  if level = 0 then module.getD ""
  else
    let components := componentsOf package
    joinDots (components.take (components.length - (level - 1)) ++
      (module.map dottedParts).getD [])

/-- The table of imported names with those that a block binds. -/
def addImports (package : String) (imports : Table String String) : Block → Table String String
  | .statement (.importNames names) =>
    names.foldl (fun imports a =>
      match a.asName with
      | some bound => Table.set bound.text a.name.text imports
      | none => Table.set a.name.first.text a.name.first.text imports) imports
  | .statement (.importFrom module (some names) level) =>
    let base := importBase package (module.map (·.text)) level
    names.foldl (fun imports a =>
      Table.set (a.asName.getD a.name).text (qualify base a.name.text) imports) imports
  | _ => imports

/-- The module that statements make up. Of two imports that bind one name, the one
that is deeper in the module counts, and on one level the later one. -/
def ofStatements (name : String) (path : Path) (isPackage : Bool) (statements : List Stmt) :
    SourceModule where
  name
  path
  isPackage
  imports := (breadthFirst statements).foldl (addImports (packageOf name isPackage)) []
  classes := classesIn "" statements

/-- The classes that are not inside another class. -/
def topLevel (m : SourceModule) : List String :=
  (m.classes.map (·.qualname)).filter fun name => (dottedParts name).length = 1

end SourceModule

end ProviderRegistry.Symbols
