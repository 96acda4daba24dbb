import ProviderRegistry.Text.Lines

/-!
# Dotted names

Names with dots between their components: modules, classes in modules and
attributes of either. The last dot separates a name from what qualifies it.
-/

namespace ProviderRegistry

/-- The part of a name before its last dot and the part after it. A name without
a dot is all last part. -/
def splitLastDot (name : String) : String × String :=
  let parts := Text.pieces (· == '.') name.toList
  (String.ofList (['.'].intercalate parts.dropLast), String.ofList (parts.getLastD []))

/-- The components of a dotted name. -/
def dottedParts (name : String) : List String :=
  (Text.pieces (· == '.') name.toList).map String.ofList

/-- Components joined by dots. -/
def joinDots (parts : List String) : String := ".".intercalate parts

/-- A name below a qualifier, or by itself when the qualifier is empty. -/
def qualify (qualifier name : String) : String :=
  if qualifier.isEmpty then name else qualifier ++ "." ++ name

end ProviderRegistry
