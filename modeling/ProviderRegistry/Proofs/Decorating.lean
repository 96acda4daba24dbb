import ProviderRegistry.Proofs.Importing
import ProviderRegistry.Proofs.Rereading
import ProviderRegistry.Proofs.Interchanging
import ProviderRegistry.Proofs.Walking

/-!
# Other decorators

Statements that differ in the decorators of their classes only (`undecoratedAll`) import the same
and declare classes with the same names, bases and members. So if the files of two trees do, names
mean the same in what scans read of them (`StaticModel.RedecoratesTree.exists_scan`), and the elements that are
found have the same kinds and inherit from the same classes, whatever their markers are
(`StaticModel.Redecorated.inherits_eq`).
-/

namespace ProviderRegistry

namespace Syntax

/-! ## Statements without the decorators of classes -/

mutual

/-- A statement without the decorators of the classes in it. -/
def Stmt.undecorated : Stmt → Stmt
  | .classDef line name bases _ body => .classDef line name bases [] (undecoratedAll body)
  | .functionDef name decorators body => .functionDef name decorators (undecoratedAll body)
  | .ifElse body orelse => .ifElse (undecoratedAll body) (undecoratedAll orelse)
  | .tryExcept body handlers orelse final =>
    .tryExcept (undecoratedAll body) (undecoratedGroups handlers) (undecoratedAll orelse)
      (undecoratedAll final)
  | .compound direct grouped after =>
    .compound (undecoratedAll direct) (undecoratedGroups grouped) (undecoratedAll after)
  | s => s

/-- Statements without the decorators of the classes in them. -/
def undecoratedAll : List Stmt → List Stmt
  | [] => []
  | s :: rest => s.undecorated :: undecoratedAll rest

/-- The statements of handlers or cases without the decorators of the classes in them. -/
def undecoratedGroups : List (List Stmt) → List (List Stmt)
  | [] => []
  | body :: rest => undecoratedAll body :: undecoratedGroups rest

end

theorem undecoratedAll_eq_map (body : List Stmt) :
    undecoratedAll body = body.map Stmt.undecorated := by
  induction body with
  | nil => rw [undecoratedAll, List.map_nil]
  | cons s rest ih => rw [undecoratedAll, ih, List.map_cons]

theorem undecoratedGroups_eq_map (groups : List (List Stmt)) :
    undecoratedGroups groups = groups.map undecoratedAll := by
  induction groups with
  | nil => rw [undecoratedGroups, List.map_nil]
  | cons body rest ih => rw [undecoratedGroups, ih, List.map_cons]

mutual

theorem height_undecorated : (s : Stmt) → s.undecorated.height = s.height
  | .classDef _ _ _ _ body => by
    rw [Stmt.undecorated, Stmt.height, Stmt.height, heightOf_undecoratedAll]
  | .functionDef _ _ body => by
    rw [Stmt.undecorated, Stmt.height, Stmt.height, heightOf_undecoratedAll]
  | .ifElse body orelse => by
    rw [Stmt.undecorated, Stmt.height, Stmt.height, heightOf_undecoratedAll,
      heightOf_undecoratedAll]
  | .tryExcept body handlers orelse final => by
    rw [Stmt.undecorated, Stmt.height, Stmt.height]
    simp only [heightOf_undecoratedAll, heightOfGroups_undecoratedGroups]
  | .compound direct grouped after => by
    rw [Stmt.undecorated, Stmt.height, Stmt.height]
    simp only [heightOf_undecoratedAll, heightOfGroups_undecoratedGroups]
  | .importNames _ => by rw [Stmt.undecorated] <;> simp
  | .importFrom _ _ _ => by rw [Stmt.undecorated] <;> simp
  | .assign _ _ => by rw [Stmt.undecorated] <;> simp
  | .annotated _ _ => by rw [Stmt.undecorated] <;> simp
  | .expression _ => by rw [Stmt.undecorated] <;> simp
  | .simple => by rw [Stmt.undecorated] <;> simp

theorem heightOf_undecoratedAll : (body : List Stmt) → heightOf (undecoratedAll body) = heightOf body
  | [] => by rw [undecoratedAll]
  | s :: rest => by
    rw [undecoratedAll, heightOf, heightOf, height_undecorated, heightOf_undecoratedAll]

theorem heightOfGroups_undecoratedGroups : (groups : List (List Stmt)) →
    heightOfGroups (undecoratedGroups groups) = heightOfGroups groups
  | [] => by rw [undecoratedGroups]
  | body :: rest => by
    rw [undecoratedGroups, heightOfGroups, heightOfGroups, heightOf_undecoratedAll,
      heightOfGroups_undecoratedGroups]

end

/-- A block without the decorators of the classes in it. -/
def Block.undecorated : Block → Block
  | .statement s => .statement s.undecorated
  | .group body => .group (undecoratedAll body)

theorem map_statement_undecoratedAll (body : List Stmt) :
    (undecoratedAll body).map Block.statement = (body.map Block.statement).map .undecorated := by
  rw [undecoratedAll_eq_map, List.map_map, List.map_map]
  rfl

theorem map_group_undecoratedGroups (groups : List (List Stmt)) :
    (undecoratedGroups groups).map Block.group = (groups.map Block.group).map .undecorated := by
  rw [undecoratedGroups_eq_map, List.map_map, List.map_map]
  rfl

theorem inside_undecorated (b : Block) : b.undecorated.inside = b.inside.map .undecorated := by
  cases b with
  | group body => exact map_statement_undecoratedAll body
  | statement s =>
    cases s <;> simp only [Block.undecorated, Block.inside, Stmt.undecorated, List.map_append,
      List.map_nil, map_statement_undecoratedAll, map_group_undecoratedGroups]

theorem levelsBelow_undecorated (height : Nat) (level : List Block) :
    levelsBelow height (level.map .undecorated) = (levelsBelow height level).map .undecorated := by
  induction height generalizing level with
  | zero => rfl
  | succ height ih =>
    have hinside : (level.map Block.undecorated).flatMap Block.inside =
        (level.flatMap Block.inside).map Block.undecorated := by
      rw [List.flatMap_map, List.map_flatMap]
      exact List.flatMap_congr fun b _ => inside_undecorated b
    rw [levelsBelow, levelsBelow, hinside, ih, List.map_append]

/-- The blocks of a module are nested in the same way. -/
theorem breadthFirst_undecoratedAll (statements : List Stmt) :
    breadthFirst (undecoratedAll statements) = (breadthFirst statements).map .undecorated := by
  rw [breadthFirst, breadthFirst, heightOf_undecoratedAll, map_statement_undecoratedAll,
    levelsBelow_undecorated]

end Syntax

namespace Symbols

open Syntax

/-! ## Modules -/

/-- A class statement without decorators. -/
def ClassDeclaration.undecorated (c : ClassDeclaration) : ClassDeclaration :=
  { c with decorators := [], body := undecoratedAll c.body }

mutual

theorem classesOf_undecorated (enclosing : String) : (s : Stmt) →
    classesOf enclosing s.undecorated = (classesOf enclosing s).map .undecorated
  | .classDef line name bases decorators body => by
    rw [Stmt.undecorated, classesOf, classesOf, List.map_cons, classesIn_undecoratedAll]
    rfl
  | .ifElse body orelse => by
    rw [Stmt.undecorated, classesOf, classesOf, List.map_append, classesIn_undecoratedAll,
      classesIn_undecoratedAll]
  | .tryExcept body handlers orelse final => by
    rw [Stmt.undecorated, classesOf, classesOf]
    simp only [List.map_append, classesIn_undecoratedAll, classesInGroups_undecoratedGroups]
  | .functionDef _ _ _ => by simp [Stmt.undecorated, classesOf]
  | .importNames _ => by simp [Stmt.undecorated, classesOf]
  | .importFrom _ _ _ => by simp [Stmt.undecorated, classesOf]
  | .assign _ _ => by simp [Stmt.undecorated, classesOf]
  | .annotated _ _ => by simp [Stmt.undecorated, classesOf]
  | .compound _ _ _ => by simp [Stmt.undecorated, classesOf]
  | .expression _ => by simp [Stmt.undecorated, classesOf]
  | .simple => by simp [Stmt.undecorated, classesOf]

theorem classesIn_undecoratedAll (enclosing : String) : (body : List Stmt) →
    classesIn enclosing (undecoratedAll body) = (classesIn enclosing body).map .undecorated
  | [] => by simp [undecoratedAll, classesIn]
  | s :: rest => by
    rw [undecoratedAll, classesIn, classesIn, List.map_append, classesOf_undecorated,
      classesIn_undecoratedAll]

theorem classesInGroups_undecoratedGroups (enclosing : String) : (groups : List (List Stmt)) →
    classesInGroups enclosing (undecoratedGroups groups) =
      (classesInGroups enclosing groups).map .undecorated
  | [] => by simp [undecoratedGroups, classesInGroups]
  | body :: rest => by
    rw [undecoratedGroups, classesInGroups, classesInGroups, List.map_append,
      classesIn_undecoratedAll, classesInGroups_undecoratedGroups]

end

theorem ClassDeclaration.members_undecorated (c : ClassDeclaration) :
    c.undecorated.members = c.members := by
  have hadd (members : Members) (s : Stmt) : members.add s.undecorated = members.add s := by
    cases s <;> simp [Stmt.undecorated, Members.add]
  change (undecoratedAll c.body).foldl Members.add {} = c.body.foldl Members.add {}
  rw [undecoratedAll_eq_map, List.foldl_map]
  simp only [hadd]

theorem ClassDeclaration.resembles_of_undecorated_eq {c c' : ClassDeclaration}
    (h : c'.undecorated = c.undecorated) : c.Resembles c' where
  qualname := congrArg (·.qualname) h
  line := congrArg (·.line) h
  bases := congrArg (·.bases) h
  members := by rw [← c.members_undecorated, ← c'.members_undecorated, h]

theorem addImports_undecorated (package : String) (imports : Table String String) (b : Block) :
    SourceModule.addImports package imports b.undecorated =
      SourceModule.addImports package imports b := by
  cases b with
  | group body => rfl
  | statement s => cases s <;> simp [Block.undecorated, Stmt.undecorated, SourceModule.addImports]

/-- A module imports what another one does, and declares its classes with other decorators. -/
structure SourceModule.Redecorated (m m' : SourceModule) : Prop where
  name : m'.name = m.name
  path : m'.path = m.path
  isPackage : m'.isPackage = m.isPackage
  imports : m'.imports = m.imports
  classes : List.Forall₂ ClassDeclaration.Resembles m.classes m'.classes

/-- A class is declared in such a module, at the place of another one. -/
structure Declared.Redecorated (d d' : Declared) : Prop where
  module : d.module.Redecorated d'.module
  declaration : d.declaration.Resembles d'.declaration

/-- **Statements with other decorators** make up such modules. -/
theorem SourceModule.redecorated_ofStatements {statements statements' : List Stmt}
    (h : undecoratedAll statements' = undecoratedAll statements) (name : String) (path : Path)
    (isPackage : Bool) : (ofStatements name path isPackage statements).Redecorated
      (ofStatements name path isPackage statements') where
  name := rfl
  path := rfl
  isPackage := rfl
  imports := by
    have himports (statements : List Stmt) :
        (ofStatements name path isPackage (undecoratedAll statements)).imports =
          (ofStatements name path isPackage statements).imports := by
      change (breadthFirst (undecoratedAll statements)).foldl _ [] = _
      rw [breadthFirst_undecoratedAll, List.foldl_map]
      simp only [addImports_undecorated]
      rfl
    rw [← himports statements', h, himports]
  classes := by
    have hpairs : List.Forall₂ (· = ·) ((classesIn "" statements).map .undecorated)
        ((classesIn "" statements').map ClassDeclaration.undecorated) := by
      rw [List.forall₂_eq_eq_eq, ← classesIn_undecoratedAll, ← classesIn_undecoratedAll, h]
    rw [List.forall₂_map_left_iff, List.forall₂_map_right_iff] at hpairs
    exact hpairs.imp fun _ _ heq => ClassDeclaration.resembles_of_undecorated_eq heq.symm

theorem SourceModule.Redecorated.topLevel_eq {m m' : SourceModule} (h : m.Redecorated m') :
    m'.topLevel = m.topLevel := by
  have hnames : m'.classes.map (·.qualname) = m.classes.map (·.qualname) := by
    refine List.forall₂_eq_eq_eq ▸ ?_
    rw [List.forall₂_map_left_iff, List.forall₂_map_right_iff]
    exact h.classes.flip.imp fun _ _ hc => hc.qualname
  rw [topLevel, topLevel, hnames]

theorem corresponds_redecorated :
    Corresponds SourceModule.Redecorated Declared.Redecorated where
  name _ _ hm := hm.name
  classes _ _ hm := hm.classes.imp fun _ _ hc => ⟨hc.qualname, hm, hc⟩

end Symbols

/-! ## Elements -/

/-- Two elements of one class, which may differ in markers and finality. -/
structure Element.Resembles (e l : Element) : Prop where
  same : e.Same l
  kind : l.kind = e.kind
  abstract : l.modifiers.abstract = e.modifiers.abstract
  supertypes : l.supertypes = e.supertypes

namespace Symbols

open Syntax

namespace Scope.Resembles

variable {scope scope' : Scope} (h : scope.Resembles scope')

include h

open StaticModel

theorem bareElement {name : String} {d d' : Declared} (hd : (name, d) ∈ scope.classes)
    (hrestates : scope.Restates d d') (answers : Answers) :
    (bareElement scope name d answers).1.Resembles (bareElement scope' name d' answers).1 ∧
      (bareElement scope' name d' answers).2 = (bareElement scope name d answers).2 := by
  rw [StaticModel.bareElement, StaticModel.bareElement]
  simp only [h.supertypes_eq hd hrestates, h.inheritanceDepth_eq, h.isEnumeration_eq,
    h.abstractMembers_eq]
  refine ⟨⟨⟨hrestates.module.name, hrestates.declaration.qualname, hrestates.module.isPackage⟩,
    rfl, rfl, rfl⟩, trivial⟩

theorem bareElements :
    Table.Pairs Element.Resembles (bareElements scope) (bareElements scope') := by
  refine (List.rel_foldl (P := fun made made' : Table String Element × Answers =>
    Table.Pairs Element.Resembles made.1 made'.1 ∧ made'.2 = made.2) ?_ ⟨.nil, rfl⟩
    (forall₂_mem h.classes)).1
  rintro ⟨elements, answers⟩ ⟨elements', answers'⟩ ⟨hpairs, hanswers⟩ ⟨name, d⟩ ⟨name', d'⟩
    ⟨hd, hname, hrestates⟩
  obtain rfl : answers' = answers := hanswers
  obtain rfl : name' = name := hname
  obtain ⟨helement, hnext⟩ := h.bareElement hd hrestates answers'
  exact ⟨List.rel_append hpairs (.cons ⟨rfl, helement⟩ .nil), hnext⟩

omit h in
theorem mark {elements elements' : Table String Element}
    (hpairs : Table.Pairs Element.Resembles elements elements') (name : String) (d d' : Declared) :
    Table.Pairs Element.Resembles (mark scope elements name d) (mark scope' elements' name d') := by
  rw [StaticModel.mark, StaticModel.mark]
  rcases hpairs.lookup name with ⟨hnone, hnone'⟩ | ⟨e, l, he, hl, hresembles⟩
  · rw [hnone, hnone']
    exact hpairs
  · rw [he, hl]
    obtain ⟨⟨hmodule, hqualname, hpackage⟩, hkind, habstract, hsupertypes⟩ := hresembles
    exact hpairs.set name ⟨⟨hmodule, hqualname, hpackage⟩, hkind, habstract, hsupertypes⟩

/-- The elements of scopes that resemble each other do so, too. -/
theorem elementsOf : Table.Pairs Element.Resembles (elementsOf scope) (elementsOf scope') := by
  refine List.rel_foldl (P := Table.Pairs Element.Resembles) ?_ h.bareElements h.classes
  rintro elements elements' hpairs ⟨name, d⟩ ⟨name', d'⟩ ⟨hname, -⟩
  obtain rfl : name' = name := hname
  exact mark hpairs name' d d'

end Scope.Resembles

/-! ## Models -/

/-- A chain of supertypes leads to a name from classes that correspond to each other. -/
theorem Reaches.of_corresponding {ask ask' : String → Option Element} {target : String}
    {R : Element → Element → Prop}
    (hname : ∀ e l, R e l → l.qualifiedName = e.qualifiedName ∧ l.supertypes = e.supertypes)
    (hask : ∀ e l, R e l → ∀ name ∈ e.supertypes, ∀ parent, ask name = some parent →
      ∃ parent', ask' name = some parent' ∧ R parent parent')
    {e l : Element} (h : Reaches ask target e) (hR : R e l) : Reaches ask' target l := by
  induction h generalizing l with
  | self hself => exact .self ((hname _ _ hR).1.trans hself)
  | base hbase => exact .base ((hname _ _ hR).2 ▸ hbase)
  | up hup hparent _ ih =>
    obtain ⟨parent', hparent', hR'⟩ := hask _ _ hR _ hup _ hparent
    exact .up ((hname _ _ hR).2 ▸ hup) hparent' (ih hR')

namespace StaticModel

/-- What two models have found resembles each other. -/
structure Redecorated (model model' : StaticModel) : Prop where
  scope : model.scope.Resembles model'.scope
  found : Table.Pairs Element.Resembles model.found model'.found

variable {model model' scanned : StaticModel} {tree tree' : FileTree} {reports reports' : Reports}

namespace Redecorated

variable (h : model.Redecorated model')

include h

/-- A name that comes up leads to elements that resemble each other, or to none. -/
theorem element? {name : String} (hname : model.scope.ComesUp name) :
    (model.element? name = none ∧ model'.element? name = none) ∨
      ∃ e l, model.element? name = some e ∧ model'.element? name = some l ∧ e.Resembles l := by
  have hcanonical : model'.scope.canonical name = model.scope.canonical name :=
    h.scope.canonicalWithin_eq Scope.maxHops hname
  rw [StaticModel.element?, StaticModel.element?, lookUp, lookUp, hcanonical]
  rcases h.found.lookup name with ⟨hnone, hnone'⟩ | ⟨e, l, he, hl, hresembles⟩
  · rw [hnone, hnone']
    exact h.found.lookup (model.scope.canonical name)
  · rw [he, hl]
    exact .inr ⟨e, l, rfl, rfl, hresembles⟩

/-- Classes with other decorators inherit from the same classes. -/
theorem inherits_eq (hsettled : model.Settled) {e l k k' : Element} (hel : e.Resembles l)
    (hcomesUp : ∀ name ∈ e.supertypes, model.scope.ComesUp name)
    (hk : k'.qualifiedName = k.qualifiedName) : model'.inherits l k' = model.inherits e k := by
  -- Along a chain, the supertypes of all classes come up.
  let R : Element → Element → Prop := fun e l =>
    e.Resembles l ∧ ∀ name ∈ e.supertypes, model.scope.ComesUp name
  have hR : R e l := ⟨hel, hcomesUp⟩
  rw [Bool.eq_iff_iff, inherits_iff_reaches, inherits_iff_reaches, hk]
  constructor
  · refine fun hreaches => hreaches.of_corresponding (R := fun l e => R e l)
      (fun l e hR => ⟨hR.1.same.qualifiedName.symm, hR.1.supertypes.symm⟩)
      (fun l e hR name hmem parent hparent => ?_) hR
    have hname := hR.2 name (hR.1.supertypes ▸ hmem)
    rcases h.element? hname with ⟨-, hnone⟩ | ⟨e', l', he', hl', hresembles⟩
    · rw [hnone] at hparent
      cases hparent
    · obtain rfl := Option.some.inj (hparent.symm.trans hl')
      exact ⟨e', he', hresembles, hsettled.comesUp_of_element? he'⟩
  · refine fun hreaches => hreaches.of_corresponding (R := R)
      (fun e l hR => ⟨hR.1.same.qualifiedName, hR.1.supertypes⟩)
      (fun e l hR name hmem parent hparent => ?_) hR
    rcases h.element? (hR.2 name hmem) with ⟨hnone, -⟩ | ⟨e', l', he', hl', hresembles⟩
    · rw [hnone] at hparent
      cases hparent
    · obtain rfl := Option.some.inj (hparent.symm.trans he')
      exact ⟨l', hl', hresembles, hsettled.comesUp_of_element? he'⟩

end Redecorated

/-! ## Scans -/

/-- Two readings of a file are the same, or differ in the decorators of classes only. -/
inductive Redecorates : Except ScanFault (Except String (List Stmt)) →
    Except ScanFault (Except String (List Stmt)) → Prop
  | same (reading) : Redecorates reading reading
  | read {statements statements'} (h : undecoratedAll statements' = undecoratedAll statements) :
      Redecorates (.ok (.ok statements)) (.ok (.ok statements'))

/-- A tree that differs from another one in the decorators of classes only, as far as a model
scans it. -/
structure RedecoratesTree (model : StaticModel) (tree tree' : FileTree) : Prop where
  alike : tree.Alike tree'
  readings : ∀ root ∈ model.roots, ∀ components ∈ filesBelow tree root model.ignoreDirs,
    Redecorates (readModule tree ⟨root.root, root.parts ++ components⟩ model.encoding)
      (readModule tree' ⟨root.root, root.parts ++ components⟩ model.encoding)

theorem RedecoratesTree.rereads (h : model.RedecoratesTree tree tree') :
    RereadsTree SourceModule.Redecorated model tree tree' where
  alike := h.alike
  readings := by
    intro root hroot components hcomponents
    have hreading := h.readings root hroot components hcomponents
    generalize readModule tree ⟨root.root, root.parts ++ components⟩ model.encoding =
      reading at hreading ⊢
    generalize readModule tree' ⟨root.root, root.parts ++ components⟩ model.encoding =
      reading' at hreading ⊢
    cases hreading with
    | same =>
      rcases reading with fault | (reason | statements)
      · exact .fault fault
      · exact .rejected reason
      · exact .read fun name isPackage => SourceModule.redecorated_ofStatements rfl name _ isPackage
    | read hstatements =>
      exact .read fun name isPackage =>
        SourceModule.redecorated_ofStatements hstatements name _ isPackage

/-- **What a scan finds when classes have other decorators.** -/
theorem RedecoratesTree.exists_scan (hscope : model.scope = {}) (helements : model.elements = none)
    (hredecorates : model.RedecoratesTree tree tree')
    (hscan : model.scan tree reports = (scanned, reports', .ok ())) :
    ∃ scanned', model.scan tree' reports = (scanned', reports', .ok ()) ∧
      scanned.Redecorated scanned' ∧
      Table.Pairs Declared.Redecorated scanned.scope.classes scanned'.scope.classes := by
  obtain ⟨scanned', hscan', hread, helements'⟩ := exists_scan_of_rereads corresponds_redecorated
    hscope helements hredecorates.rereads hscan
  have hagrees {m m' : SourceModule} (hm : m.Redecorated m') : scanned.scope.Agrees m m' :=
    ⟨hm.name, hm.path, hm.isPackage, hm.topLevel_eq, fun _ _ _ => by rw [hm.imports]⟩
  have hresembles : scanned.scope.Resembles scanned'.scope :=
    ⟨hread.modules.imp fun _ _ hm => ⟨hm.1, hagrees hm.2⟩,
      hread.classes.imp fun _ _ hd => ⟨hd.1, hagrees hd.2.module, hd.2.declaration⟩⟩
  refine ⟨scanned', hscan', ⟨hresembles, ?_⟩, hread.classes⟩
  obtain ⟨middle, -, rfl⟩ := of_scan_eq_ok helements hscan
  rw [found, found, helements']
  exact hresembles.elementsOf

end StaticModel

end Symbols

end ProviderRegistry
