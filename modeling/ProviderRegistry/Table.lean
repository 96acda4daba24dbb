/-!
# Tables

Keys and values in the order in which the keys were first set. Setting a key
again replaces its value and leaves it in its place.
-/

namespace ProviderRegistry

/-- Keys with one value each, in the order in which they were first set. -/
abbrev Table (κ α : Type) := List (κ × α)

namespace Table

variable {κ α : Type} [BEq κ]

/-- The table with `value` as the value of `key`. -/
def set (key : κ) (value : α) : Table κ α → Table κ α
  | [] => [(key, value)]
  | entry :: rest => if entry.1 == key then (key, value) :: rest else entry :: set key value rest

/-- The table with a value for a key that has none yet. -/
def setMissing (table : Table κ α) (key : κ) (value : α) : Table κ α :=
  if (table.lookup key).isSome then table else table ++ [(key, value)]

/-- Whether a key has a value. -/
def has (table : Table κ α) (key : κ) : Bool := (table.lookup key).isSome

end Table

end ProviderRegistry
