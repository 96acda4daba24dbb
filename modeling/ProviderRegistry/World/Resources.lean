import ProviderRegistry.Text.Word
import ProviderRegistry.World.Reference

/-!
# Resources and names

What a resource loader finds: the files of a name below its roots, and the
objects that dotted names lead to. A file that two roots lead to counts once,
for the first of them.
-/

namespace ProviderRegistry.World

namespace ResourceLoader

/-- The directories that a loader looks in, in order. -/
def directories (loader : ResourceLoader) (w : World) : List Path := loader.roots.getD w.path

/-- A loader as text. -/
def display (loader : ResourceLoader) : String :=
  "ResourceLoader(roots=" ++ (match loader.roots with
    | none => "sys.path"
    | some roots => "[" ++ ", ".intercalate (roots.map (Text.quote ·.text)) ++ "]") ++ ")"

/-- The files of a name below some directories, leaving out those `seen` before. -/
def filesIn (w : World) (name : String) : List Path → (seen : List Location) →
    Except FileError (List Path)
  | [], _ => .ok []
  | directory :: rest, seen =>
    let candidate := directory.child name
    match w.files.isFile candidate, w.files.locate candidate with
    | .error e, _ => .error e
    | .ok true, .ok l =>
      if seen.contains l then filesIn w name rest seen
      else (filesIn w name rest (l :: seen)).map (candidate :: ·)
    | .ok _, _ => filesIn w name rest seen

/-- The files of a name below the roots. -/
def resources (loader : ResourceLoader) (name : String) : Run (List Path) := do
  let w ← Run.world
  Run.ofFile (filesIn w name (loader.directories w) [])

end ResourceLoader

/-- The loader that is bound innermost, or else the one that follows the search path. -/
def loader (w : World) : ResourceLoader := w.bound.headD {}

/-! ## Names -/

/-- Imports as many modules as the components of a name lead to, and goes through
attributes from there. -/
def resolveFrom (importer : Importer) (module : String) : List String → Run Object
  | [] => return .module module
  | part :: rest => do
    let inner := module ++ "." ++ part
    match ← (importer inner).outcome with
    | .ok () => resolveFrom importer inner rest
    | .error e =>
      if e.isA "ImportError" then getAttributes (.module module) (part :: rest) else throw e

/-- The object that a name leads to: a dotted name, or a module, a colon and the
attributes to go through. -/
def resolveName (importer : Importer) (name : String) : Run Object := do
  let pieces := Text.pieces (· == ':') name.toList
  let isName (text : List Char) : Bool := Text.isDottedWords text
  match pieces with
  | [dotted] =>
    match isName dotted, dottedParts name with
    | true, head :: rest => do
      importer head
      resolveFrom importer head rest
    | _, _ => Run.raise "ValueError" ("invalid format: " ++ Text.quote name)
  | [module, path] =>
    if isName module && (path.isEmpty || isName path) then
      let module := String.ofList module
      importer module
      getAttributes (.module module) (if path.isEmpty then [] else dottedParts (String.ofList path))
    else Run.raise "ValueError" ("invalid format: " ++ Text.quote name)
  | _ => Run.raise "ValueError" ("invalid format: " ++ Text.quote name)

end ProviderRegistry.World
