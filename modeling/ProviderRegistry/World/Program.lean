import ProviderRegistry.Naming
import ProviderRegistry.Syntax.Statement
import ProviderRegistry.Text.Encoding
import ProviderRegistry.World.State

/-!
# Programs

What the text of a file does when it is imported. Texts of described modules
run their statements. Of other texts, generated factory modules are told by
what they contain: an import of a contract and a class that loads it. All
others declare nothing.
-/

namespace ProviderRegistry.World

open Syntax

/-- A generated factory module. -/
structure FactoryProgram where
  /-- The module that the contract is imported from, and the name imported. -/
  contractModule : String
  contractImport : String
  className : String
  /-- The contract as its name and the attributes to go through. -/
  contractPath : List String
  deriving DecidableEq, Repr

/-- What a file does when it is imported. -/
inductive Program where
  | statements (body : List Statement)
  | factory (f : FactoryProgram)
  | malformed

namespace Program

/-- The contract that a class loads, if one of its statements does so. -/
def loadedContract? (body : List Stmt) : Option String :=
  body.findSome? fun
    | .assign _ (.call (.member (.name loader) method) [contract] []) =>
      if loader.text = "ServiceLoader" && method.text = "load" then contract.dotted? else none
    | _ => none

/-- The class that keeps a provider, and the contract that it loads. -/
def keeper? (module : List Stmt) : Option (String × String) :=
  module.findSome? fun
    | .classDef _ name [] _ body => (loadedContract? body).map (name.text, ·)
    | _ => none

/-- The last import of a single name from a module. -/
def lastImport? (module : List Stmt) : Option (String × String) :=
  module.reverse.findSome? fun
    | .importFrom (some m) (some [⟨name, none⟩]) 0 => some (m.text, name.text)
    | .importFrom (some m) none 0 => some (m.text, "*")
    | _ => none

/-- The factory that a module is, if it is one. -/
def factory? (module : List Stmt) : Option FactoryProgram := do
  let (className, contract) ← keeper? module
  let (contractModule, contractImport) ← lastImport? module
  return { contractModule, contractImport, className, contractPath := dottedParts contract }

/-- What the text of a file does, unless it is that of a described module. -/
def ofText (bytes : List UInt8) : Program :=
  match Text.decode .utf8 bytes with
  | .error _ => .malformed
  | .ok text =>
    match parseModule? (Text.normalizeNewlines text) with
    | none => .malformed
    | some module => match factory? module with
      | some f => .factory f
      | none => .statements []

/-- What a file does when it is imported. -/
def ofFile (w : World) (bytes : List UInt8) : Program :=
  match w.programs.lookup bytes with
  | some body => .statements body
  | none => ofText bytes

end Program

end ProviderRegistry.World
