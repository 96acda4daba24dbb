import ProviderRegistry.Element
import ProviderRegistry.Literal.Display

/-!
# Marking classes

Markers are put on classes and on nothing else. A marker belongs to the class
that it is put on: a class that derives from a marked one is not marked.
-/

namespace ProviderRegistry.Marking

/-- The marker of a provider: its contract, and whether a factory is asked for. -/
structure ProviderMarker where
  value : MarkerValue := .literal .none
  generateFactory : MarkerValue := .literal (.bool false)

/-- The marker of a generated class: the generator's name, and perhaps a date and a
comment. -/
structure GeneratedMarker where
  value : Option String
  date : Option String := none
  comments : Option String := none
  deriving DecidableEq, Repr

/-- A class with its markers. -/
structure MarkedClass where
  name : String
  provider : Option ProviderMarker := none
  generated : Option GeneratedMarker := none

/-- What a marker can be asked to be put on. -/
inductive Target where
  | cls (c : MarkedClass)
  | literal (l : Literal)

/-- The text about something that is no class. -/
def notAClass (l : Literal) : String :=
  "@service_provider can only mark classes, got " ++ l.display

/-- Puts the marker of a provider on a class. -/
def ProviderMarker.mark (m : ProviderMarker) : Target → Except String MarkedClass
  | .cls c => .ok { c with provider := some m }
  | .literal l => .error (notAClass l)

/-- Puts the marker of a generated class on a class. -/
def GeneratedMarker.mark (m : GeneratedMarker) (c : MarkedClass) : MarkedClass :=
  { c with generated := some m }

/-- A class that derives from another. -/
def MarkedClass.derived (_base : MarkedClass) (name : String) : MarkedClass := { name }

end ProviderRegistry.Marking
