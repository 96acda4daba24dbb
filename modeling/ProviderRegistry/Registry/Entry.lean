import ProviderRegistry.Datum
import ProviderRegistry.Text.Lines

/-!
# Registry entries

The implementations registered for one contract, in order. Adding and merging
keep the names that are there and append only names that are new, so an entry
grows at its end and nothing is ever listed twice by them.
-/

namespace ProviderRegistry.Registry

/-- The names registered for a contract, in order. -/
structure Entry where
  contractName : String
  implementations : List String := []
  deriving DecidableEq, Repr

namespace Entry

/-- Appends a name that is not there yet. -/
def add (entry : Entry) (name : String) : Entry :=
  if entry.implementations.contains name then entry
  else { entry with implementations := entry.implementations ++ [name] }

/-- Appends the names that are not there yet, in their order. -/
def merge (entry : Entry) (names : List String) : Entry := names.foldl add entry

/-- How many names are registered. -/
def size (entry : Entry) : Nat := entry.implementations.length

/-- The content of a registry file: every name on a line of its own. -/
def render (entry : Entry) : List Char := Text.unlines (entry.implementations.map String.toList)

/-- An entry from the data of its fields. -/
def check (contractName implementations : Datum) : Checked Entry :=
  (Checked.both (contractName.checkString ["contract_name"])
    (implementations.checkList ["implementations"] Datum.checkString)).map
    fun (contractName, implementations) => { contractName, implementations }

end Entry

end ProviderRegistry.Registry
