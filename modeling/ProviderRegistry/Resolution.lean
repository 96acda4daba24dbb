import ProviderRegistry.Registry.Aggregate
import ProviderRegistry.Symbols.Model

/-!
# Resolution

Which contract a marked class is a provider of. A candidate must be a concrete
class, its marker must name a contract, and the class must inherit from the
contract. A candidate that fails is reported, once and with the first rule that
it breaks, and dropped.
-/

namespace ProviderRegistry.Resolution

open Symbols

/-- The markers that count: the given ones, or those of the settings. -/
def markersOr (settings : Settings) (markers : List String) : List String :=
  if markers.isEmpty then settings.markerNames else markers

/-- The contract that the marker of a class names, if it names one: a class by its
qualified name or as it is. -/
def contractOf (markers : List String) (element : Element) : Query (Option Element) := do
  match (element.annotation? markers).bind (·.value? "value") with
  | some (.literal (.str name)) => return some (← Query.reference name)
  | some (.type contract) =>
    return some ((← Query.element? contract.qualifiedName).getD contract)
  | _ => return none

/-- Whether the marker of a class asks for a factory. -/
def requestsFactory (markers : List String) (element : Element) : Bool :=
  match (element.annotation? markers).bind (·.value? "generate_factory") with
  | none | some (.literal .none) => false
  | some value => value.truthy

/-- Reports an error about a class. -/
def reject (element : Element) (message : String) : Query (Option Registry.Binding) := do
  modify fun s => { s with reports := s.reports.error message element }
  return none

/-- Whether a class can be a provider at all. -/
def isConcrete (element : Element) : Bool :=
  element.kind == .ordinary && !element.modifiers.abstract

/-- The text for a class that does not inherit from its contract. -/
def notAssignable (element contract : Element) : String :=
  "Type " ++ element.qualifiedName ++ " is not assignable from " ++ contract.qualifiedName

/-- The contract of a candidate with the candidate, unless it is rejected. -/
def bindingOf (markers : List String) (element : Element) : Query (Option Registry.Binding) := do
  let contract ← contractOf markers element
  if !isConcrete element then
    reject element (element.qualifiedName ++ " must be a concrete class")
  else match contract with
    | none => reject element "Missing required value argument"
    | some contract =>
      if ← Query.isAssignable element contract then
        return some ⟨contract, element, requestsFactory markers element⟩
      else reject element (notAssignable element contract)

/-- The bindings of several candidates, without those that are rejected. -/
def bindingsOf (markers : List String) (elements : List Element) :
    Query (List Registry.Binding) := do
  return (← elements.mapM (bindingOf markers)).filterMap id

end ProviderRegistry.Resolution
