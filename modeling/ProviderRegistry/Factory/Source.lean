import ProviderRegistry.Element
import ProviderRegistry.Naming
import ProviderRegistry.Text.Quoted

/-!
# Factory modules

The module generated for a contract: a class that loads the contract's
providers once, when the module is imported, and keeps the first. What the
module says depends on the contract alone, up to the generator's name and
the date, which it records.
-/

namespace ProviderRegistry.Factory

/-- All that the text of a factory module depends on. -/
structure Source where
  /-- The package that receives the module. -/
  package : String
  /-- The module's name, without its package. -/
  moduleName : String
  className : String
  contractModule : String
  contractQualname : String
  accessor : String := Naming.accessorName
  generator : String
  date : String
  deriving DecidableEq, Repr

namespace Source

/-- The factory module of a contract. -/
def forContract (contract : Element) (generator date : String) : Source where
  package := contract.packageName
  moduleName := Naming.factoryModule contract.simpleName
  className := Naming.factoryClass contract.simpleName
  contractModule := contract.module
  contractQualname := contract.qualname
  generator
  date

/-- The full name of the module. -/
def qualifiedModule (s : Source) : String := qualify s.package s.moduleName

/-- The name imported from the contract's module: the outermost class. -/
def contractImport (s : Source) : String := (dottedParts s.contractQualname).headD ""

/-- The contract's name with its module. -/
def contractName (s : Source) : String := s.contractModule ++ "." ++ s.contractQualname

/-- The lines of the module. -/
def lines (s : Source) : List String := [
  "# This module was generated by " ++ s.generator ++ ". Do not edit.",
  "\"\"\"Singleton accessor for :class:`" ++ s.contractName ++ "`.\"\"\"",
  "",
  "from typing import Optional",
  "",
  "from services import ServiceLoader, generated",
  "from " ++ s.contractModule ++ " import " ++ s.contractImport,
  "",
  "",
  "@generated(value=" ++ Text.quote s.generator ++ ", date=" ++ Text.quote s.date ++ ")",
  "class " ++ s.className ++ ":",
  "    \"\"\"Holds the first registered " ++ s.contractQualname ++ ", or None.\"\"\"",
  "",
  "    __loader = ServiceLoader.load(" ++ s.contractQualname ++ ")",
  "    __INSTANCE: Optional[" ++ s.contractQualname ++ "] = next(iter(__loader), None)",
  "    del __loader",
  "",
  "    @staticmethod",
  "    def " ++ s.accessor ++ "() -> Optional[" ++ s.contractQualname ++ "]:",
  "        return " ++ s.className ++ ".__INSTANCE"]

/-- The text of the module, every line ended. -/
def render (s : Source) : String := String.join (s.lines.map (· ++ "\n"))

end Source

end ProviderRegistry.Factory
