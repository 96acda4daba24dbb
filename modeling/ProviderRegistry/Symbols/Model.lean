import ProviderRegistry.Symbols.Live
import ProviderRegistry.Symbols.Static

/-!
# Symbol models

A symbol model answers what classes there are, which markers they carry and
what they inherit from. It is read statically or from live classes; the
questions are the same. The first question makes a model scan what it is to
scan, so that asking can report, import modules and fail.
-/

namespace ProviderRegistry.Symbols

open World

/-- A symbol model. -/
inductive SymbolModel where
  | static (model : StaticModel)
  | live (model : LiveModel)

/-- What questions are asked in: a model, the world that it looks at, and the reports
made so far. -/
structure Session where
  model : SymbolModel
  world : World
  reports : Reports := {}

/-- A question to a symbol model. -/
abbrev Query := ExceptT Raised (StateM Session)

/-- The exception that ends a scan. -/
def ScanFault.raised : ScanFault → Raised
  | unknownEncoding name => { kind := "LookupError", message := "unknown encoding: " ++ name }
  | file e => .ofFile e

namespace Query

/-- Runs a scan of static sources. -/
def scanStatic (model : StaticModel) : Query Unit := fun s =>
  let (model, reports, result) := model.scan s.world.files s.reports
  (result.mapError ScanFault.raised, { s with model := .static model, reports })

/-- Runs a scan of live classes. -/
def scanLive (model : LiveModel) : Query Unit := fun s =>
  let (result, survey) := Surveying.scan.run ⟨model, s.world, s.reports⟩
  (result, ⟨.live survey.model, survey.world, survey.reports⟩)

/-- Makes the model scan what it is to scan, unless it has. -/
def scan : Query Unit := do
  match (← get).model with
  | .static model => scanStatic model
  | .live model => scanLive model

/-- Keeps a live model. -/
def keep (model : LiveModel) : Query Unit := modify fun s => { s with model := .live model }

/-- All classes, in order. -/
def elements : Query (List Element) := do
  scan
  let s ← get
  match s.model with
  | .static model => return model.found.map (·.2)
  | .live model =>
    let (model, elements) := model.elementsOf s.world
    keep model
    return elements

/-- The class with a qualified name. -/
def element? (name : String) : Query (Option Element) := do
  scan
  let s ← get
  match s.model with
  | .static model => return model.element? name
  | .live model =>
    match model.found.lookup name with
    | none => return none
    | some id =>
      let (model, element) := model.elementOf? s.world id
      keep model
      return element

/-- The class with a qualified name, or what stands for it when nothing declares it. -/
def reference (name : String) : Query Element := do
  return (← element? name).getD (.undeclared name)

/-- The classes that carry one of some markers, in order. -/
def annotated (markers : List String) : Query (List Element) := do
  return (← elements).filter fun e => (e.annotation? markers).isSome

end Query

/-! ## Assignability -/

/-- How many supertypes are named by the classes of a model and by `element`: as many
classes, and one more, a walk can come to. Sources that have not been scanned are scanned
on the way, so that the classes are those of the scan. -/
def supertypeCount (s : Session) (element : Element) : Nat :=
  element.supertypes.length + match s.model with
    | .static model =>
      ((model.scan s.world.files s.reports).1.found.flatMap fun (_, e) => e.supertypes).length
    | .live model => (model.found.flatMap fun (_, id) =>
        ((s.world.class? id).map (·.bases)).getD []).length

/-- What comes of looking through the supertypes of a class. -/
inductive Look where
  | found
  /-- The names met so far, and the classes that are still to be looked at. -/
  | further (seen : List String) (queue : List Element)

section

variable {m : Type → Type} [Monad m] (ask : String → m (Option Element)) (target : String)

/-- Looks through supertypes for the target, and takes note of the classes they lead
to. -/
def lookThrough : List String → (seen : List String) → (queue : List Element) → m Look
  | [], seen, queue => return .further seen queue
  | name :: rest, seen, queue => do
    if name = target then return .found
    else if seen.contains name then lookThrough rest seen queue
    else
      let parent ← ask name
      lookThrough rest (name :: seen) (queue ++ parent.toList)

/-- Walks upward from some classes, nearest first, in at most `steps` steps: whether the
walk meets the target. Classes that nothing declares end it along their branch. -/
def walkUp : (steps : Nat) → (queue : List Element) → (seen : List String) → m Bool
  | 0, _, _ => return false
  | _, [], _ => return false
  | steps + 1, current :: queue, seen => do
    if current.qualifiedName = target then return true
    else match ← lookThrough ask target current.supertypes seen queue with
      | .found => return true
      | .further seen queue => walkUp steps queue seen

end

namespace Query

/-- Whether a walk from a class meets a contract. -/
def inherits (element contract : Element) : Query Bool := do
  let steps := supertypeCount (← get) element + 1
  walkUp Query.element? contract.qualifiedName steps [element] []

/-- Whether a class is a contract or inherits from it. Of two live classes that are both
known, the classes themselves are asked. -/
def isAssignable (element contract : Element) : Query Bool := do
  match (← get).model with
  | .static _ => inherits element contract
  | .live _ =>
    scan
    let s ← get
    match s.model with
    | .static _ => inherits element contract
    | .live model =>
      let target := (model.found.lookup contract.qualifiedName).or
        (model.contracts.lookup contract.qualifiedName)
      match model.found.lookup element.qualifiedName, target with
      | some id, some target => return s.world.classes.isSubtype id target
      | _, _ => inherits element contract

end Query

/-! ## Choosing a model -/

namespace SymbolModel

/-- The word for the kind of a model. -/
def label : SymbolModel → String
  | static _ => "ast"
  | live _ => "import"

/-- The kinds of models. -/
inductive Kind where
  | static
  | live
  deriving DecidableEq, Repr

/-- The words for the kinds, the main word for each before the other. -/
def Kind.words : List (String × Kind) :=
  [("ast", .static), ("static", .static), ("import", .live), ("reflection", .live)]

/-- What a kind of models does, in one sentence. -/
def Kind.description : Kind → String
  | static => "Symbol model over source roots, read statically."
  | live => "Symbol model over imported modules."

/-- The kinds with their main words and what they do. -/
def available : List (String × String) :=
  [("ast", Kind.static.description), ("import", Kind.live.description)]

/-- The kind that a word stands for, case aside. -/
def Kind.ofWord? (word : String) : Option Kind :=
  Kind.words.lookup (String.ofList (Text.lower word.toList))

/-- The text for a word that stands for no kind. -/
def unknownKind (word : Option String) : String :=
  "Unknown symbol model: " ++ word.getD "None" ++ ". Available: [" ++
    ", ".intercalate (Kind.words.map fun (w, _) => Text.quote w) ++ "]"

/-- The kind that a word stands for; an empty one leaves it to the settings. -/
def Kind.choose (settings : Settings) (word : Option String) : Except Raised Kind :=
  match Kind.ofWord? (Settings.orDefault word settings.symbolModel) with
  | some kind => .ok kind
  | none => .error { kind := "ValueError", message := unknownKind word }

/-- A model of a kind, over source roots or over modules. -/
def create (settings : Settings) (kind : Kind) (sources : List Path) (modules : List String) :
    SymbolModel :=
  match kind with
  | .static => .static (.new settings sources)
  | .live => .live { moduleNames := modules, searchPath := sources }

end SymbolModel

end ProviderRegistry.Symbols
