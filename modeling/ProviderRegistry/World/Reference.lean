import ProviderRegistry.World.State

/-!
# References

What a reference in a module stands for. A reference by module imports the
module, whichever way modules are imported where the reference stands; a
reference by name looks in the class body around it, then in its module, then
among the names that every module has.
-/

namespace ProviderRegistry.World

/-- A way to import a module by its name. -/
abbrev Importer := String → Run Unit

/-- Where a reference stands: its module, and the body of the class around it. -/
structure Frame where
  module : String
  body : Table String Attribute := []

/-- What a name is bound to where it stands. -/
def Frame.lookUp? (w : World) (frame : Frame) (name : String) : Option Object :=
  match frame.body.lookup name with
  | some (.object o) => some o
  | _ => ((w.namesOf frame.module).lookup name).or ((w.namesOf "builtins").lookup name)

/-- What a reference stands for. -/
def resolve (importer : Importer) (frame : Frame) : Ref → Run Object
  | .qualified module attributes => do
    importer module
    getAttributes (.module module) attributes
  | .named name attributes => do
    match frame.lookUp? (← Run.world) name with
    | some o => getAttributes o attributes
    | none => Run.raise "NameError" ("name '" ++ name ++ "' is not defined")

end ProviderRegistry.World
