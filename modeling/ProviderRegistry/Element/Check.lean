import ProviderRegistry.Datum

/-!
# Checking elements

A type element read from data: the module and the name must be there,
everything else may be left out, and fields of other names are ignored.
-/

namespace ProviderRegistry

namespace Datum

/-- The kind of a class, by its word. -/
def checkKind (location : List String) : Datum → Checked ElementKind
  | str word => match ElementKind.ofLabel? word with
    | some kind => .ok kind
    | none => refuse location .enumMember
  | _ => refuse location .enumMember

/-- A modifier, by its word, as the change it makes to a set of them. -/
def checkModifier (location : List String) : Datum → Checked String
  | str word =>
    if (Modifiers.insertLabel? {} word).isSome then .ok word else refuse location .enumMember
  | _ => refuse location .enumMember

/-- A set of modifiers, in any order and with repetitions. -/
def checkModifiers (location : List String) (d : Datum) : Checked Modifiers :=
  match d with
  | list _ => (checkList location checkModifier d).map fun words =>
      words.foldl (fun m word => (m.insertLabel? word).getD m) {}
  | _ => refuse location .setType

/-- A path, from its text. -/
def checkPath (location : List String) : Datum → Checked Path
  | str s => .ok (Path.ofString s)
  | _ => refuse location .pathType

/-- Places of violations below a field of a record. -/
def nested (location : List String) (check : Checked α) : Checked α :=
  check.mapError fun violations =>
    violations.map fun v => { v with location := location ++ v.location }

/-- The arguments of a marker, which have their shape already. -/
def checkArguments (location : List String) : Datum → Checked (List (String × MarkerValue))
  | record fields => .ok (fields.filterMap fun (name, d) => match d with
      | argument value => some (name, value)
      | _ => none)
  | _ => refuse location .recordType

/-- A marker: its name must be there. -/
def checkAnnotation (location : List String) (d : Datum) : Checked Annotation :=
  match d with
  | record _ =>
    nested location <|
      (Checked.both (d.required "annotation_type" checkString)
        (d.optional "element_values" [] checkArguments)).map
      fun (annotationType, arguments) => { annotationType, arguments }
  | _ => refuse location .elementType

end Datum

open Datum in
/-- A type element from its fields. -/
def Element.check (d : Datum) : Checked Element :=
  let name := Checked.both (d.required "module" checkString) (d.required "qualname" checkString)
  let shape := Checked.both (d.optional "kind" .ordinary checkKind)
    (d.optional "modifiers" {} checkModifiers)
  let inherited := Checked.both
    (d.optional "annotations" [] fun l => checkList l checkAnnotation)
    (d.optional "supertypes" [] fun l => checkList l checkString)
  let place := Checked.both (d.optional "is_package" false checkBool)
    (Checked.both (d.optional "source_path" none fun l => checkOptional (checkPath l))
      (d.optional "lineno" none fun l => checkOptional (checkInt l)))
  (Checked.both (Checked.both name shape) (Checked.both inherited place)).map
    fun (((module, qualname), kind, modifiers), (annotations, supertypes), isPackage,
      sourcePath, line) =>
    { module, qualname, kind, modifiers, annotations, supertypes, isPackage, sourcePath, line }

/-- A type element named by a text: what stands before the last dot is its
module. -/
def Element.named (name : String) : Element :=
  let (module, qualname) := splitLastDot name
  { module, qualname }

end ProviderRegistry
