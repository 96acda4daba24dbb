import ProviderRegistry.Proofs.Files
import ProviderRegistry.Proofs.Names
import ProviderRegistry.Symbols.Static

/-!
# Names in sources

Every name that a static model finds in sources is a dotted one: the names of modules and
classes, the names that imports lead to, and the names of supertypes
(`StaticModel.WellNamed.scan`).
-/

namespace ProviderRegistry

/-! ## Tables -/

namespace Table

variable {κ α : Type} {P : α → Prop}

/-- All values of a table have a property. -/
def All (P : α → Prop) (table : Table κ α) : Prop := ∀ entry ∈ table, P entry.2

theorem All.nil : All P ([] : Table κ α) := List.forall_mem_nil _

variable [BEq κ] {table : Table κ α}

theorem All.set (h : All P table) (key : κ) {value : α} (hvalue : P value) :
    All P (Table.set key value table) := by
  induction table with
  | nil => exact List.forall_mem_singleton.mpr hvalue
  | cons entry rest ih =>
    rw [All, List.forall_mem_cons] at h
    rw [Table.set]
    split
    next => exact List.forall_mem_cons.mpr ⟨hvalue, h.2⟩
    next => exact List.forall_mem_cons.mpr ⟨h.1, ih h.2⟩

theorem All.of_lookup [LawfulBEq κ] (h : All P table) {key : κ} {value : α}
    (hlookup : table.lookup key = some value) : P value :=
  h _ (mem_of_lookup hlookup)

end Table

namespace Symbols

open Syntax

/-! ## What sources declare -/

theorem isDotted_identifier (id : Identifier) : IsDotted id.text :=
  .of_isIdentifier id.isIdentifier

theorem isDotted_dottedName (n : DottedName) : IsDotted n.text := by
  refine IsDotted.joinDots (by simp) fun part hpart => ?_
  obtain ⟨id, -, rfl⟩ := List.mem_map.mp hpart
  exact isDotted_identifier id

/-- What an expression spells is a dotted name. -/
theorem isDotted_of_dotted? {e : Expr} {name : String} (h : e.dotted? = some name) :
    IsDotted name := by
  fun_induction Expr.dotted? e generalizing name with
  | case1 id => exact Option.some.inj h ▸ isDotted_identifier id
  | case2 value attr ih =>
    obtain ⟨before, hbefore, rfl⟩ := Option.map_eq_some_iff.mp h
    exact IsDotted.append_iff.mpr ⟨ih hbefore, isDotted_identifier attr⟩
  | case3 value ih => exact ih h
  | case4 inner ih => exact ih h
  | case5 => cases h

/-- Components of dotted names make up a dotted name, if there are any. -/
theorem isDotted_joinDots_or {parts : List String} (h : ∀ part ∈ parts, IsDotted part) :
    joinDots parts = "" ∨ IsDotted (joinDots parts) := by
  by_cases hparts : parts = []
  · exact .inl (by rw [hparts, joinDots, String.intercalate_nil])
  · exact .inr (.joinDots hparts h)

mutual

theorem isDotted_classesOf {enclosing : String} (h : enclosing = "" ∨ IsDotted enclosing) :
    (s : Stmt) → ∀ c ∈ classesOf enclosing s, IsDotted c.qualname
  | .classDef line name bases decorators body => by
    have hname : IsDotted (qualify enclosing name.text) := .qualify h (isDotted_identifier name)
    rw [classesOf, List.forall_mem_cons]
    exact ⟨hname, isDotted_classesIn (.inr hname) body⟩
  | .ifElse body orelse => by
    rw [classesOf, List.forall_mem_append]
    exact ⟨isDotted_classesIn h body, isDotted_classesIn h orelse⟩
  | .tryExcept body handlers orelse final => by
    simp only [classesOf, List.forall_mem_append]
    exact ⟨⟨⟨isDotted_classesIn h body, isDotted_classesIn h orelse⟩,
      isDotted_classesIn h final⟩, isDotted_classesInGroups h handlers⟩
  | .functionDef _ _ _ => by simp [classesOf]
  | .importNames _ => by simp [classesOf]
  | .importFrom _ _ _ => by simp [classesOf]
  | .assign _ _ => by simp [classesOf]
  | .annotated _ _ => by simp [classesOf]
  | .compound _ _ _ => by simp [classesOf]
  | .expression _ => by simp [classesOf]
  | .simple => by simp [classesOf]

theorem isDotted_classesIn {enclosing : String} (h : enclosing = "" ∨ IsDotted enclosing) :
    (body : List Stmt) → ∀ c ∈ classesIn enclosing body, IsDotted c.qualname
  | [] => by simp [classesIn]
  | s :: rest => by
    rw [classesIn, List.forall_mem_append]
    exact ⟨isDotted_classesOf h s, isDotted_classesIn h rest⟩

theorem isDotted_classesInGroups {enclosing : String} (h : enclosing = "" ∨ IsDotted enclosing) :
    (groups : List (List Stmt)) → ∀ c ∈ classesInGroups enclosing groups, IsDotted c.qualname
  | [] => by simp [classesInGroups]
  | body :: rest => by
    rw [classesInGroups, List.forall_mem_append]
    exact ⟨isDotted_classesIn h body, isDotted_classesInGroups h rest⟩

end

namespace SourceModule

theorem isDotted_packageOf {name : String} (h : IsDotted name) (isPackage : Bool) :
    packageOf name isPackage = "" ∨ IsDotted (packageOf name isPackage) := by
  rw [packageOf]
  split
  · exact .inr h
  · rw [splitLastDot_fst]
    exact isDotted_joinDots_or fun part hpart => h.dottedParts (List.dropLast_subset _ hpart)

theorem isDotted_importBase {package : String} (h : package = "" ∨ IsDotted package)
    (module : Option DottedName) (level : Nat) :
    importBase package (module.map (·.text)) level = "" ∨
      IsDotted (importBase package (module.map (·.text)) level) := by
  rw [importBase]
  split
  · cases module with
    | none => exact .inl rfl
    | some n => exact .inr (isDotted_dottedName n)
  · refine isDotted_joinDots_or fun part hpart => ?_
    rcases List.mem_append.mp hpart with hpart | hpart
    · have hpart := List.take_subset _ _ hpart
      rw [componentsOf] at hpart
      split at hpart
      next => cases hpart
      next hne =>
        refine (h.resolve_left ?_).dottedParts hpart
        rintro rfl
        exact hne rfl
    · cases module with
      | none => cases hpart
      | some n => exact (isDotted_dottedName n).dottedParts hpart

/-- Imports bind names to dotted names. -/
theorem isDotted_addImports {package : String} (h : package = "" ∨ IsDotted package)
    {imports : Table String String} (himports : imports.All IsDotted) (b : Block) :
    (addImports package imports b).All IsDotted := by
  unfold addImports
  split
  · refine List.foldlRecOn _ _ himports fun table htable a _ => ?_
    split
    · exact htable.set _ (isDotted_dottedName a.name)
    · exact htable.set _ (isDotted_identifier _)
  · refine List.foldlRecOn _ _ himports fun table htable a _ => ?_
    exact htable.set _ (.qualify (isDotted_importBase h _ _) (isDotted_identifier _))
  · exact himports

/-- All names of a module are dotted ones. -/
structure WellNamed (m : SourceModule) : Prop where
  name : IsDotted m.name
  imports : m.imports.All IsDotted
  classes : ∀ c ∈ m.classes, IsDotted c.qualname

theorem wellNamed_ofStatements {name : String} (h : IsDotted name) (path : Path)
    (isPackage : Bool) (statements : List Stmt) :
    (ofStatements name path isPackage statements).WellNamed where
  name := h
  imports := List.foldlRecOn _ _ Table.All.nil fun _ himports b _ =>
    isDotted_addImports (isDotted_packageOf h isPackage) himports b
  classes := isDotted_classesIn (.inl rfl) statements

end SourceModule

/-! ## What names mean -/

/-- A class of a well-named module, with a dotted name. -/
structure Declared.WellNamed (d : Declared) : Prop where
  module : d.module.WellNamed
  declaration : IsDotted d.declaration.qualname

namespace Scope

/-- All names of a scope are dotted ones. -/
structure WellNamed (scope : Scope) : Prop where
  modules : scope.modules.All SourceModule.WellNamed
  classes : scope.classes.All Declared.WellNamed

variable {scope : Scope}

theorem WellNamed.empty : ({} : Scope).WellNamed := ⟨.nil, .nil⟩

theorem WellNamed.add (h : scope.WellNamed) {m : SourceModule} (hm : m.WellNamed) :
    (scope.add m).WellNamed where
  modules := List.forall_mem_append.mpr ⟨h.modules, List.forall_mem_singleton.mpr hm⟩
  classes := List.foldlRecOn _ _ h.classes fun _ hclasses c hc =>
    hclasses.set _ ⟨hm, hm.classes c hc⟩

theorem wellNamed_of_splitModule? (h : scope.WellNamed) {initial rest parts : List String}
    {m : SourceModule} (hinitial : ∀ part ∈ initial, IsDotted part)
    (hrest : ∀ part ∈ rest, IsDotted part)
    (hsplit : scope.splitModule? rest initial = some (m, parts)) :
    m.WellNamed ∧ ∀ part ∈ parts, IsDotted part := by
  induction initial generalizing rest with
  | nil => cases hsplit
  | cons last before ih =>
    rw [List.forall_mem_cons] at hinitial
    rw [splitModule?] at hsplit
    split at hsplit
    next hlookup =>
      cases hsplit
      exact ⟨h.modules.of_lookup hlookup, hrest⟩
    next => exact ih hinitial.2 (List.forall_mem_cons.mpr ⟨hinitial.1, hrest⟩) hsplit

theorem isDotted_hop? (h : scope.WellNamed) {name next : String} (hname : IsDotted name)
    (hhop : scope.hop? name = some next) : IsDotted next := by
  have hparts : ∀ part ∈ (dottedParts name).reverse, IsDotted part := by
    intro part hpart
    exact hname.dottedParts (List.mem_reverse.mp hpart)
  -- A hop keeps the components after the import and puts those of its target in front.
  rw [hop?] at hhop
  split at hhop
  next => cases hhop
  next last before heq =>
    rw [heq, List.forall_mem_cons] at hparts
    split at hhop
    next m head rest hsplit =>
      obtain ⟨hm, hrest⟩ := wellNamed_of_splitModule? h hparts.2
        (List.forall_mem_singleton.mpr hparts.1) hsplit
      split at hhop
      next => cases hhop
      next =>
        obtain ⟨target, htarget, rfl⟩ := Option.map_eq_some_iff.mp hhop
        refine .joinDots (List.cons_ne_nil _ _) (List.forall_mem_cons.mpr ⟨?_, ?_⟩)
        · exact hm.imports.of_lookup htarget
        · exact (List.forall_mem_cons.mp hrest).2
    next => cases hhop

theorem isDotted_canonicalWithin (h : scope.WellNamed) (hops : Nat) {name : String}
    (hname : IsDotted name) : IsDotted (scope.canonicalWithin hops name) := by
  -- Each hop leads from a dotted name to a dotted name.
  induction hops generalizing name with
  | zero => exact hname
  | succ hops ih =>
    rw [canonicalWithin]
    split
    · exact hname
    · split
      next hhop => exact ih (isDotted_hop? h hname hhop)
      next => exact hname

theorem isDotted_headMeaning? {m : SourceModule} (hm : m.WellNamed) {head meaning : String}
    (hhead : IsDotted head) (h : headMeaning? m head = some meaning) : IsDotted meaning := by
  rw [headMeaning?] at h
  split at h
  next => exact Option.some.inj h ▸ .qualify (.inr hm.name) hhead
  next =>
    split at h
    next hlookup => exact Option.some.inj h ▸ hm.imports.of_lookup hlookup
    next =>
      split at h
      next => exact Option.some.inj h ▸ .qualify (.inr (by decide)) hhead
      next => cases h

/-- What a dotted name refers to has a dotted name. -/
theorem isDotted_resolve (h : scope.WellNamed) {m : SourceModule} (hm : m.WellNamed)
    {name : String} (hname : IsDotted name) : IsDotted (scope.resolve m name) := by
  have hparts : ∀ part ∈ dottedParts name, IsDotted part := fun _ hpart => hname.dottedParts hpart
  rw [resolve, splitHead]
  cases hsplit : dottedParts name with
  | nil => exact absurd (List.map_eq_nil_iff.mp hsplit) (Text.pieces_ne_nil _)
  | cons head rest =>
    rw [hsplit, List.forall_mem_cons] at hparts
    simp only
    split
    next meaning hmeaning =>
      refine isDotted_canonicalWithin h _ (.joinDots (List.cons_ne_nil _ _) ?_)
      exact List.forall_mem_cons.mpr ⟨isDotted_headMeaning? hm hparts.1 hmeaning, hparts.2⟩
    next => exact hname

theorem isDotted_supertypes (h : scope.WellNamed) {d : Declared} (hd : d.WellNamed) :
    ∀ name ∈ scope.supertypes d, IsDotted name := by
  intro name hname
  obtain ⟨written, hwritten, rfl⟩ := List.mem_map.mp hname
  obtain ⟨e, -, he⟩ := List.mem_filterMap.mp hwritten
  exact isDotted_resolve h hd.module (isDotted_of_dotted? he)

end Scope

/-! ## What a scan finds -/

/-- The name of a class and those of its supertypes are dotted ones. -/
structure NamedElement (e : Element) : Prop where
  qualifiedName : IsDotted e.qualifiedName
  supertypes : ∀ name ∈ e.supertypes, IsDotted name

namespace StaticModel

theorem isDotted_moduleName? {components : List String} {name : String} {isPackage : Bool}
    (h : moduleName? components = some (name, isPackage)) : IsDotted name := by
  unfold moduleName? at h
  extract_lets stem isInitial parts at h
  split at h
  next => cases h
  next hparts =>
    simp only [Bool.or_eq_true, Bool.not_eq_true', not_or, Bool.not_eq_true, Bool.not_eq_false,
      List.isEmpty_eq_false_iff, List.all_eq_true] at hparts
    obtain ⟨rfl, -⟩ := Prod.mk.inj (Option.some.inj h)
    exact .joinDots hparts.1 fun part hpart => .of_isIdentifier (hparts.2 part hpart)

theorem namedElement_bareElement {scope : Scope} (h : scope.WellNamed) {d : Declared}
    (hd : d.WellNamed) (name : String) (answers : Answers) :
    NamedElement (bareElement scope name d answers).1 where
  qualifiedName := .qualify (.inr hd.module.name) hd.declaration
  supertypes := Scope.isDotted_supertypes h hd

theorem namedElement_bareElements {scope : Scope} (h : scope.WellNamed) :
    (bareElements scope).All NamedElement := by
  -- The fold threads the answers about inheritance, which names do not depend on.
  refine List.foldlRecOn (motive := fun found : Table String Element × Answers =>
    found.1.All NamedElement) _ _ .nil
    fun found hfound entry hentry => ?_
  refine List.forall_mem_append.mpr ⟨hfound, List.forall_mem_singleton.mpr ?_⟩
  exact namedElement_bareElement h (h.classes entry hentry) _ _

theorem namedElement_mark {scope : Scope} {elements : Table String Element}
    (h : elements.All NamedElement) (name : String) (d : Declared) :
    (mark scope elements name d).All NamedElement := by
  rw [mark]
  split
  next => exact h
  next hlookup => exact h.set _ ⟨(h.of_lookup hlookup).1, (h.of_lookup hlookup).2⟩

theorem namedElement_elementsOf {scope : Scope} (h : scope.WellNamed) :
    (elementsOf scope).All NamedElement :=
  List.foldlRecOn _ _ (namedElement_bareElements h) fun _ helements _ _ =>
    namedElement_mark helements _ _

/-- All names of a model are dotted ones, those that it has read and those that it has
found. -/
structure WellNamed (model : StaticModel) : Prop where
  scope : model.scope.WellNamed
  found : model.found.All NamedElement

variable {model model' : StaticModel} {tree : FileTree} {root : Path}
  {reports reports' : Reports}

/-- The model with one more module read. -/
def withModule (model : StaticModel) (m : SourceModule) : StaticModel :=
  { model with scope := model.scope.add m }

/-- A file is read as a new module. -/
structure Reads (tree : FileTree) (model : StaticModel) (root : Path) (components : List String)
    (name : String) (isPackage : Bool) (statements : List Stmt) : Prop where
  moduleName : moduleName? components = some (name, isPackage)
  isNew : model.scope.modules.has name = false
  read : readModule tree ⟨root.root, root.parts ++ components⟩ model.encoding = .ok (.ok statements)

/-- What comes of a file: it is passed over, since it holds no module or one that has been read
already, it is rejected and reported, or it is read as a new module. -/
inductive Loads (tree : FileTree) (model : StaticModel) (root : Path) (components : List String)
    (reports : Reports) : StaticModel → Reports → Prop
  | passed (h : ∀ name isPackage, moduleName? components = some (name, isPackage) →
      model.scope.modules.has name = true) : Loads tree model root components reports model reports
  | rejected {name reason : String} {isPackage : Bool}
      (hname : moduleName? components = some (name, isPackage))
      (hnew : model.scope.modules.has name = false)
      (hread : readModule tree ⟨root.root, root.parts ++ components⟩ model.encoding =
        .ok (.error reason)) :
      Loads tree model root components reports model
        (reports.error ("Could not parse " ++
          (⟨root.root, root.parts ++ components⟩ : Path).text ++ ": " ++ reason))
  | read {name : String} {isPackage : Bool} {statements : List Stmt}
      (h : Reads tree model root components name isPackage statements) :
      Loads tree model root components reports
        (model.withModule (.ofStatements name ⟨root.root, root.parts ++ components⟩ isPackage
          statements)) reports

theorem loads_of_load {components : List String}
    (hload : model.load tree root components reports = .ok (model', reports')) :
    Loads tree model root components reports model' reports' := by
  rw [StaticModel.load] at hload
  split at hload
  next hnone =>
    cases hload
    exact .passed fun name isPackage hname => by rw [hname] at hnone; cases hnone
  next name isPackage hname =>
    split at hload
    next hhas =>
      cases hload
      refine .passed fun name' isPackage' hname' => ?_
      obtain ⟨rfl, rfl⟩ := Prod.mk.inj (Option.some.inj (hname.symm.trans hname'))
      exact hhas
    next hnew =>
      simp only at hload
      split at hload
      next => cases hload
      next reason hread =>
        cases hload
        exact .rejected hname (Bool.eq_false_iff.mpr hnew) hread
      next statements hread =>
        cases hload
        exact .read ⟨hname, Bool.eq_false_iff.mpr hnew, hread⟩

/-! What reading one more module preserves holds after any reading. -/

theorem load_induction {P : StaticModel → Prop} {components : List String}
    (hadd : ∀ name isPackage statements,
      Reads tree model root components name isPackage statements → P model →
        P (model.withModule (.ofStatements name ⟨root.root, root.parts ++ components⟩ isPackage
          statements)))
    (h : P model) (hload : model.load tree root components reports = .ok (model', reports')) :
    P model' := by
  cases loads_of_load hload with
  | passed _ => exact h
  | rejected _ _ _ => exact h
  | read hreads => exact hadd _ _ _ hreads h

theorem loadAll_induction {P : StaticModel → Prop} {files : List (List String)}
    (hadd : ∀ model, ∀ components ∈ files, ∀ name isPackage statements,
      Reads tree model root components name isPackage statements → P model →
        P (model.withModule (.ofStatements name ⟨root.root, root.parts ++ components⟩ isPackage
          statements)))
    (h : P model) (reports : Reports) :
    P (StaticModel.loadAll tree root files model reports).1 := by
  induction files generalizing model reports with
  | nil => exact h
  | cons components rest ih =>
    rw [StaticModel.loadAll]
    split
    next => exact h
    next hfirst =>
      refine ih (fun model c hc => hadd model c (List.mem_cons_of_mem _ hc)) ?_ _
      exact load_induction (hadd model components List.mem_cons_self) h hfirst

/-- Which directories a model ignores does not change. -/
theorem ignoreDirs_loadAll (model : StaticModel) (tree : FileTree) (root : Path)
    (files : List (List String)) (reports : Reports) :
    (StaticModel.loadAll tree root files model reports).1.ignoreDirs = model.ignoreDirs :=
  loadAll_induction (P := fun m => m.ignoreDirs = model.ignoreDirs)
    (fun _ _ _ _ _ _ _ h => h) rfl reports

theorem loadRoots_induction {P : StaticModel → Prop} {roots : List Path}
    (hadd : ∀ middle, ∀ root ∈ roots, ∀ components ∈ filesBelow tree root model.ignoreDirs,
      ∀ name isPackage statements,
      Reads tree middle root components name isPackage statements → P middle →
        P (middle.withModule (.ofStatements name ⟨root.root, root.parts ++ components⟩ isPackage
          statements)))
    (h : P model) (reports : Reports) :
    P (StaticModel.loadRoots tree roots model reports).1 := by
  induction roots generalizing model reports with
  | nil => exact h
  | cons root rest ih =>
    rw [StaticModel.loadRoots]
    split
    next => exact h
    next => exact ih (fun m r hr => hadd m r (List.mem_cons_of_mem _ hr)) h _
    next =>
      have hfirst := loadAll_induction
        (fun m => hadd m root List.mem_cons_self) h reports
      have hdirs := ignoreDirs_loadAll model tree root (filesBelow tree root model.ignoreDirs)
        reports
      split
      next heq => rwa [heq] at hfirst
      next heq =>
        rw [heq] at hfirst hdirs
        refine ih (fun m r hr => ?_) hfirst _
        rw [hdirs]
        exact hadd m r (List.mem_cons_of_mem _ hr)

theorem wellNamed_new (settings : Settings) (roots : List Path)
    (ignoreDirs : Option (List String)) (encoding : Option String) :
    (new settings roots ignoreDirs encoding).WellNamed :=
  ⟨.empty, .nil⟩

theorem WellNamed.add (h : model.WellNamed) {components : List String} {name : String}
    {isPackage : Bool} (hname : moduleName? components = some (name, isPackage)) (path : Path)
    (statements : List Stmt) :
    (model.withModule (.ofStatements name path isPackage statements)).WellNamed where
  scope := h.scope.add (SourceModule.wellNamed_ofStatements (isDotted_moduleName? hname) _ _ _)
  found := h.found

/-- **All names that a scan finds are dotted ones**, whether or not it ends well. -/
theorem WellNamed.scan (h : model.WellNamed) (tree : FileTree) (reports : Reports) :
    (model.scan tree reports).1.WellNamed := by
  have hroots : (loadRoots tree model.roots model reports).1.WellNamed :=
    loadRoots_induction (fun _ _ _ _ _ _ _ _ hreads hmodel => hmodel.add hreads.moduleName _ _)
      h reports
  rw [StaticModel.scan]
  split
  next => exact h
  next =>
    split
    next heq => rwa [heq] at hroots
    next heq =>
      rw [heq] at hroots
      exact ⟨hroots.scope, namedElement_elementsOf hroots.scope⟩

end StaticModel

end Symbols

end ProviderRegistry
