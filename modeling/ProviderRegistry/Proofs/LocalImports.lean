import Mathlib
import ProviderRegistry.Proofs.Forgetting
import ProviderRegistry.Proofs.Rereading

/-!
# Imports in functions

The imports in the functions of a module count like those at its top, so that removing them
can change what names mean outside of the functions. The classes that are declared stay
(`StaticModel.scan_trimmed`), and their elements do if no import in a function decides what
a name is bound to that the scan asks for (`StaticModel.found_without_local_imports`).
-/

namespace ProviderRegistry

namespace Symbols

open Syntax

/-! ## Trimmed modules -/

/-- Whether a block is an import. -/
def isImport : Block → Bool
  | .statement (.importNames _) => true
  | .statement (.importFrom _ _ _) => true
  | _ => false

/-- Statements from which the imports in functions have been removed: nothing else has
changed, up to statements in functions that do nothing, and no import is left. -/
structure Trims (statements trimmed : List Stmt) : Prop where
  rest : forgetIn false trimmed = forgetIn false statements
  none : ∀ b ∈ placedBlocks trimmed, b.1 = true → isImport b.2 = false

/-- Two readings of a file are the same, or the second one is trimmed. -/
inductive TrimsReading : Except ScanFault (Except String (List Stmt)) →
    Except ScanFault (Except String (List Stmt)) → Prop
  | same (reading) : TrimsReading reading reading
  | trimmed {statements trimmed} : Trims statements trimmed →
      TrimsReading (.ok (.ok statements)) (.ok (.ok trimmed))

theorem Trims.localImports {statements trimmed : List Stmt} (h : Trims statements trimmed)
    (package : String) : Symbols.localImports package trimmed = [] := by
  refine List.flatMap_eq_nil_iff.mpr fun b hb => ?_
  obtain ⟨hb, hlocal⟩ := List.mem_filter.mp hb
  have hnone := h.none b hb hlocal
  obtain ⟨inFunction, s | body⟩ := b
  · cases s with
    | importNames names => cases hnone
    | importFrom module names level => cases hnone
    | _ => rfl
  · rfl

variable {model : StaticModel} {tree tree' : FileTree} {reports reports' : Reports}

/-- One module is another one as it is read from a tree, or trimmed. -/
structure TrimsModule (tree : FileTree) (encoding : String) (m m' : SourceModule)
    (statements trimmed : List Stmt) : Prop where
  read : StaticModel.readModule tree m.path encoding = .ok (.ok statements)
  trims : trimmed = statements ∨ Trims statements trimmed
  eq : m = .ofStatements m.name m.path m.isPackage statements
  eq' : m' = .ofStatements m.name m.path m.isPackage trimmed

/-- Two modules are made up of the statements of a file and of the same statements, trimmed
or not. -/
def TrimmedModule (tree : FileTree) (encoding : String) (m m' : SourceModule) : Prop :=
  ∃ statements trimmed, TrimsModule tree encoding m m' statements trimmed

/-- Two classes stand at the same place of such modules. -/
structure TrimmedClass (tree : FileTree) (encoding : String) (d d' : Declared) : Prop where
  module : TrimmedModule tree encoding d.module d'.module
  declaration : d.declaration.Matches d'.declaration

/-- What two models have read that were the same at the start. -/
structure TrimmedModel (start : StaticModel) (tree : FileTree) (model model' : StaticModel) :
    Prop where
  roots : model'.roots = model.roots
  ignoreDirs : model'.ignoreDirs = model.ignoreDirs
  encoding : model.encoding = start.encoding
  encoding' : model'.encoding = start.encoding
  modules : Table.Pairs (TrimmedModule tree start.encoding) model.scope.modules
    model'.scope.modules
  classes : Table.Pairs (TrimmedClass tree start.encoding) model.scope.classes
    model'.scope.classes

theorem ClassDeclaration.matches_of_forget_eq {c c' : ClassDeclaration}
    (h : c'.forget = c.forget) : c.Matches c' where
  qualname := congrArg (·.qualname) h
  line := congrArg (·.line) h
  bases := congrArg (·.bases) h
  decorators := congrArg (·.decorators) h
  members := by rw [← c.members_forget, ← c'.members_forget, h]

namespace TrimsModule

variable {encoding : String} {m m' : SourceModule} {statements trimmed : List Stmt}
  (h : TrimsModule tree encoding m m' statements trimmed)

include h

theorem map_forget_classes :
    m'.classes.map ClassDeclaration.forget = m.classes.map ClassDeclaration.forget := by
  rw [h.eq, h.eq']
  change (classesIn "" trimmed).map ClassDeclaration.forget =
    (classesIn "" statements).map ClassDeclaration.forget
  rcases h.trims with htrims | htrims
  · rw [htrims]
  · rw [← classesIn_forgetIn, ← classesIn_forgetIn, htrims.rest]

/-- Trimming a module keeps its classes, -/
theorem classes : List.Forall₂ ClassDeclaration.Matches m.classes m'.classes := by
  have hpairs : List.Forall₂ (· = ·) (m.classes.map ClassDeclaration.forget)
      (m'.classes.map ClassDeclaration.forget) := by
    rw [List.forall₂_eq_eq_eq]
    exact h.map_forget_classes.symm
  rw [List.forall₂_map_left_iff, List.forall₂_map_right_iff] at hpairs
  exact hpairs.imp fun _ _ heq => ClassDeclaration.matches_of_forget_eq heq.symm

theorem topLevel_eq : m'.topLevel = m.topLevel := by
  have hnames := congrArg (List.map ClassDeclaration.qualname) h.map_forget_classes
  rw [List.map_map, List.map_map] at hnames
  exact congrArg (List.filter fun name => (dottedParts name).length = 1) hnames

/-- and what its imports bind a name to, if the imports in functions do not decide it. -/
theorem lookup_imports_eq {head : String}
    (hkept : (SourceModule.ofStatements m.name m.path m.isPackage
      (forgetIn false statements)).imports.lookup head = m.imports.lookup head) :
    m'.imports.lookup head = m.imports.lookup head := by
  rcases h.trims with htrims | htrims
  · rw [h.eq', htrims, ← h.eq]
  · rw [← hkept, ← htrims.rest, SourceModule.lookup_forgetIn, ← h.eq']
    rw [htrims.localImports]
    exact List.not_mem_nil

end TrimsModule

/-! ## Trimmed scans -/

theorem corresponds_trimmed (tree : FileTree) (encoding : String) :
    Corresponds (TrimmedModule tree encoding) (TrimmedClass tree encoding) where
  name m m' hm := by
    obtain ⟨statements, trimmed, hm⟩ := hm
    rw [hm.eq']
    rfl
  classes m m' hm := by
    obtain ⟨statements, trimmed, htrims⟩ := hm
    exact htrims.classes.imp fun c c' hc => ⟨hc.qualname, ⟨statements, trimmed, htrims⟩, hc⟩

namespace StaticModel

variable {scanned : StaticModel}

/-- A tree from which imports in functions have been removed, out of modules that a model
scans. -/
structure TrimsTree (model : StaticModel) (tree tree' : FileTree) : Prop where
  alike : tree.Alike tree'
  readings : ∀ root ∈ model.roots, ∀ components ∈ filesBelow tree root model.ignoreDirs,
    TrimsReading (readModule tree ⟨root.root, root.parts ++ components⟩ model.encoding)
      (readModule tree' ⟨root.root, root.parts ++ components⟩ model.encoding)

theorem TrimsTree.rereads (h : model.TrimsTree tree tree') :
    RereadsTree (TrimmedModule tree model.encoding) model tree tree' where
  alike := h.alike
  readings := by
    intro root hroot components hcomponents
    have htrims := h.readings root hroot components hcomponents
    generalize hread : readModule tree ⟨root.root, root.parts ++ components⟩ model.encoding =
      reading at htrims ⊢
    generalize readModule tree' ⟨root.root, root.parts ++ components⟩ model.encoding =
      reading' at htrims ⊢
    cases htrims with
    | same =>
      rcases reading with fault | (reason | statements)
      · exact .fault fault
      · exact .rejected reason
      · exact .read fun _ _ => ⟨statements, statements, hread, .inl rfl, rfl, rfl⟩
    | @trimmed statements trimmed htrims =>
      exact .read fun _ _ => ⟨statements, trimmed, hread, .inr htrims, rfl, rfl⟩

/-- **What a scan reads of a trimmed tree.** -/
theorem scan_trimmed (hscope : model.scope = {}) (helements : model.elements = none)
    (htrims : model.TrimsTree tree tree')
    (hscan : model.scan tree reports = (scanned, reports', .ok ())) :
    ∃ scanned', model.scan tree' reports = (scanned', reports', .ok ()) ∧
      TrimmedModel model tree scanned scanned' ∧
      scanned'.elements = some (elementsOf scanned'.scope) := by
  obtain ⟨scanned', hscan', hread, helements'⟩ := exists_scan_of_rereads
    (corresponds_trimmed tree model.encoding) hscope helements htrims.rereads hscan
  exact ⟨scanned', hscan', ⟨hread.roots, hread.ignoreDirs'.trans hread.ignoreDirs.symm,
    hread.encoding, hread.encoding', hread.modules, hread.classes⟩, helements'⟩

/-- Whether what a name is bound to in a module that has been read is the same without the
imports in functions. -/
def KeepsName (tree : FileTree) (encoding : String) (m : SourceModule) (head : String) : Prop :=
  match readModule tree m.path encoding with
  | .ok (.ok statements) =>
    (SourceModule.ofStatements m.name m.path m.isPackage
      (forgetIn false statements)).imports.lookup head = m.imports.lookup head
  | _ => False

instance (tree : FileTree) (encoding : String) (m : SourceModule) (head : String) :
    Decidable (KeepsName tree encoding m head) := by
  unfold KeepsName
  split <;> infer_instance

/-- A name that no import in a function binds is among them. -/
theorem keepsName_of_notMem {encoding : String} {m : SourceModule} {statements : List Stmt}
    {head : String} (hread : readModule tree m.path encoding = .ok (.ok statements))
    (hm : m = .ofStatements m.name m.path m.isPackage statements)
    (h : head ∉ (localImports (SourceModule.packageOf m.name m.isPackage) statements).map (·.1)) :
    KeepsName tree encoding m head := by
  rw [KeepsName, hread]
  exact (SourceModule.lookup_forgetIn h m.path).trans (by rw [← hm])

/-- No import in a function decides what a name is bound to that a scan asks for, the
classes of the asked modules aside. -/
def AsksNothingLocal (tree : FileTree) (scanned : StaticModel) : Prop :=
  ∀ m head, scanned.scope.Asks m head → head ∉ m.topLevel → KeepsName tree scanned.encoding m head

theorem agrees_of_trimmed {m m' : SourceModule} (hlocal : AsksNothingLocal tree scanned)
    (h : TrimmedModule tree scanned.encoding m m') : scanned.scope.Agrees m m' := by
  obtain ⟨statements, trimmed, hm⟩ := h
  refine ⟨by rw [hm.eq']; rfl, by rw [hm.eq']; rfl, by rw [hm.eq']; rfl, hm.topLevel_eq,
    fun head hasks hclass => hm.lookup_imports_eq ?_⟩
  have hkeeps := hlocal m head hasks hclass
  rw [KeepsName, hm.read] at hkeeps
  exact hkeeps

/-- **Removing imports in functions.** A scan reads the same classes when imports in
functions are removed from its modules. It also finds the same elements and accepts the same
providers, if no such import decides what a name is bound to that the scan asks for. -/
theorem found_without_local_imports (hscope : model.scope = {}) (helements : model.elements = none)
    (htrims : model.TrimsTree tree tree')
    (hscan : model.scan tree reports = (scanned, reports', .ok ())) :
    ∃ scanned', model.scan tree' reports = (scanned', reports', .ok ()) ∧
      Table.Pairs (TrimmedClass tree model.encoding) scanned.scope.classes
        scanned'.scope.classes ∧
      (AsksNothingLocal tree scanned → scanned'.found = scanned.found ∧
        ∀ markers, acceptedBindings scanned' markers = acceptedBindings scanned markers) := by
  obtain ⟨scanned', hscan', htrimmed, helements'⟩ := scan_trimmed hscope helements htrims hscan
  refine ⟨scanned', hscan', htrimmed.classes, fun hlocal => ?_⟩
  have hmirrors : scanned.scope.Mirrors scanned'.scope := by
    have hagrees {m m' : SourceModule} (h : TrimmedModule tree model.encoding m m') :
        scanned.scope.Agrees m m' :=
      agrees_of_trimmed hlocal (htrimmed.encoding ▸ h)
    exact ⟨htrimmed.modules.imp fun _ _ h => ⟨h.1, hagrees h.2⟩,
      htrimmed.classes.imp fun _ _ h => ⟨h.1, hagrees h.2.module, h.2.declaration⟩⟩
  have hfound : scanned'.found = scanned.found := by
    obtain ⟨middle, -, rfl⟩ := of_scan_eq_ok helements hscan
    rw [found, found, helements']
    exact hmirrors.elementsOf_eq
  exact ⟨hfound, fun markers => Mirrors.acceptedBindings_eq ⟨hmirrors, hfound⟩
    (settled_of_scan hscope helements hscan) markers⟩

/-! ### A function that imports -/

/-- A class that derives from what an import at the top of its module provides, below a
function. -/
def importingSource (body : String) : String :=
  "def f():" ++ body ++ "\nimport a\nclass D(a.Z):0\n"

def importingTree (body : String) : FileTree :=
  ⟨[], [(["q"], .directory), (["q", "m.py"], .file (Text.utf8Bytes (importingSource body).toList))]⟩

def importingModel : StaticModel where
  roots := [⟨.none, ["q"]⟩]
  ignoreDirs := []
  encoding := "utf-8"

def importingScan (body : String) : StaticModel × Reports × Except ScanFault Unit :=
  importingModel.scan (importingTree body) {}

def identifierA : Identifier := ⟨"a", by decide⟩

/-- The statements of the module, of which the one is that of the function. -/
def importingStatements (s : Stmt) : List Stmt :=
  [.functionDef ⟨"f", by decide⟩ [] [s], .importNames [⟨⟨identifierA, []⟩, none⟩],
    .classDef 3 ⟨"D", by decide⟩ [.member (.name identifierA) ⟨"Z", by decide⟩] []
      [.expression (.constant (.int 0))]]

def importAs (bound : Option Identifier) : Stmt :=
  .importNames [⟨⟨⟨"c", by decide⟩, []⟩, bound⟩]

theorem parse_importing : parseModule? (importingSource "import c").toList =
    some (importingStatements (importAs none)) := by
  cbv

theorem parse_rebinding : parseModule? (importingSource "import c as a").toList =
    some (importingStatements (importAs identifierA)) := by
  cbv

theorem parse_passing : parseModule? (importingSource "pass").toList =
    some (importingStatements .simple) := by
  cbv

/-- What the module is read as, for a function that does one thing. -/
def ReadsAs (body : String) : Prop :=
  ((importingTree body).readText ⟨.none, ["q", "m.py"]⟩ "utf-8").toOption =
      some (importingSource body).toList ∧
    filesBelow (importingTree body) ⟨.none, ["q"]⟩ [] = [["m.py"]]

instance (body : String) : Decidable (ReadsAs body) := inferInstanceAs (Decidable (_ ∧ _))

/-- The import can be removed from the function. -/
theorem trimsTree_importing {body : String} {bound : Option Identifier} (hreads : ReadsAs body)
    (hparse : parseModule? (importingSource body).toList =
      some (importingStatements (importAs bound))) :
    importingModel.TrimsTree (importingTree body) (importingTree "pass") where
  alike := ⟨rfl, .cons ⟨rfl, Iff.rfl⟩ (.cons ⟨rfl, nofun, nofun⟩ .nil)⟩
  readings := by
    have hpassing : ReadsAs "pass" := by decide +kernel
    intro root hroot components hcomponents
    obtain rfl := List.mem_singleton.mp hroot
    rw [importingModel, hreads.2, List.mem_singleton] at hcomponents
    obtain rfl := hcomponents
    have hread := readModule_eq_ok hreads.1 hparse
    have hread' := readModule_eq_ok hpassing.1 parse_passing
    change TrimsReading (readModule (importingTree body) ⟨.none, ["q", "m.py"]⟩ "utf-8")
      (readModule (importingTree "pass") ⟨.none, ["q", "m.py"]⟩ "utf-8")
    rw [hread, hread']
    exact .trimmed ⟨rfl, by decide⟩

theorem importingScan_eq {body : String} (h : (importingScan body).2.2.isOk = true) :
    importingModel.scan (importingTree body) {} =
      ((importingScan body).1, (importingScan body).2.1, .ok ()) :=
  eq_of_isOk h

/-- The supertypes that a scan finds of the class of the module. -/
def ImportingFinds (body : String) (supertypes : List String) : Prop :=
  (importingScan body).2.2.isOk = true ∧
    ((importingScan body).1.found.lookup "m.D").map (·.supertypes) = some supertypes

instance (body : String) (supertypes : List String) :
    Decidable (ImportingFinds body supertypes) := inferInstanceAs (Decidable (_ ∧ _))

/-- What a scan comes across in the module, and asks for. -/
def ImportingAsks (body : String) : Prop :=
  (∀ entry ∈ (importingScan body).1.scope.classes, entry.1 = "m.D" ∧
    entry.2.declaration.writtenTexts = [] ∧
    ∀ written ∈ entry.2.declaration.writtenNames,
      Scope.spelledOut entry.2.module written = "a.Z" ∧
      KeepsName (importingTree body) (importingScan body).1.encoding entry.2.module
        (Scope.splitHead written).1) ∧
  ∀ name ∈ ["m.D", "a.Z"], (importingScan body).1.scope.hop? name = none ∧
    ∀ place ∈ (importingScan body).1.scope.hopAt? name, place.2.1 ∈ place.1.topLevel

instance (body : String) : Decidable (ImportingAsks body) := inferInstanceAs (Decidable (_ ∧ _))

theorem asksNothingLocal_importing {body : String} (h : ImportingAsks body) :
    AsksNothingLocal (importingTree body) (importingScan body).1 := by
  have hcomesUp {name : String} (hname : (importingScan body).1.scope.ComesUp name) :
      name ∈ ["m.D", "a.Z"] := by
    induction hname with
    | declared hd => exact (h.1 _ hd).1 ▸ List.mem_cons_self
    | written hd hwritten =>
      rw [((h.1 _ hd).2.2 _ hwritten).1]
      exact List.mem_cons_of_mem _ List.mem_cons_self
    | text hd htext =>
      rw [(h.1 _ hd).2.1] at htext
      cases htext
    | next _ hnext ih =>
      rw [(h.2 _ ih).1] at hnext
      cases hnext
  rintro m head (⟨hd, hwritten⟩ | ⟨hname, hat⟩) hclass
  · exact ((h.1 _ hd).2.2 _ hwritten).2
  · exact absurd ((h.2 _ (hcomesUp hname)).2 _ hat) hclass

/-- The import of another name can be removed without a change. -/
theorem found_without_local_imports_unused : ∃ scanned',
    importingModel.scan (importingTree "pass") {} =
      (scanned', (importingScan "import c").2.1, .ok ()) ∧
    ImportingFinds "import c" ["a.Z"] ∧ scanned'.found = (importingScan "import c").1.found := by
  have hfinds : ImportingFinds "import c" ["a.Z"] := by decide +kernel
  have hasks : ImportingAsks "import c" := by decide +kernel
  have hreads : ReadsAs "import c" := by decide +kernel
  obtain ⟨scanned', hscan', -, hsame⟩ := found_without_local_imports rfl rfl
    (trimsTree_importing hreads parse_importing) (importingScan_eq hfinds.1)
  exact ⟨scanned', hscan', hfinds, (hsame (asksNothingLocal_importing hasks)).1⟩

/-- The import of the name that the class derives from decides what the class derives from,
though it stands in a function. -/
theorem found_with_rebinding :
    ¬ ∀ (model scanned : StaticModel) (tree tree' : FileTree) (reports reports' : Reports),
      model.scope = {} → model.elements = none → model.TrimsTree tree tree' →
      model.scan tree reports = (scanned, reports', .ok ()) →
      ∃ scanned', model.scan tree' reports = (scanned', reports', .ok ()) ∧
        scanned'.found = scanned.found := by
  intro h
  have hfinds : ImportingFinds "import c as a" ["c.Z"] := by decide +kernel
  have hfinds' : ImportingFinds "pass" ["a.Z"] := by decide +kernel
  have hreads : ReadsAs "import c as a" := by decide +kernel
  obtain ⟨scanned', hscan', hfound⟩ := h _ _ _ _ _ _ rfl rfl
    (trimsTree_importing hreads parse_rebinding) (importingScan_eq hfinds.1)
  obtain rfl : scanned' = (importingScan "pass").1 := (congrArg Prod.fst hscan').symm
  have hchanged := hfinds'.2
  rw [hfound, hfinds.2] at hchanged
  exact absurd hchanged (by decide)

end StaticModel

end Symbols

end ProviderRegistry
