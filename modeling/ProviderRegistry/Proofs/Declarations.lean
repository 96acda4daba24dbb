import ProviderRegistry.Proofs.Scanning

/-!
# Where classes come from

A scan reads each module once, from a file below one of its roots, and its classes are those
that the statements of these modules declare (`StaticModel.grown_of_scan`). An element says of
its class what the class statement says (`StaticModel.of_mem_found`): only its markers are
read later, when all classes are known (`StaticModel.exists_element`).
-/

namespace ProviderRegistry.Symbols

open Syntax

variable {model middle scanned : StaticModel} {tree : FileTree} {reports reports' : Reports}
  {scope : Scope} {m : SourceModule}

/-! ## Modules -/

namespace SourceModule

/-- A module is what the statements of a file make up, which stands below a root of a model
and is one of those that the model reads. -/
structure ReadAt (m : SourceModule) (tree : FileTree) (model : StaticModel) (root : Path)
    (components : List String) (statements : List Stmt) : Prop where
  root_mem : root ∈ model.roots
  components_mem : components ∈ StaticModel.filesBelow tree root model.ignoreDirs
  moduleName : StaticModel.moduleName? components = some (m.name, m.isPackage)
  path : m.path = ⟨root.root, root.parts ++ components⟩
  read : StaticModel.readModule tree m.path model.encoding = .ok (.ok statements)
  eq : m = .ofStatements m.name m.path m.isPackage statements

/-- A module has been read from some file. -/
def IsRead (m : SourceModule) (tree : FileTree) (model : StaticModel) : Prop :=
  ∃ root components statements, m.ReadAt tree model root components statements

end SourceModule

/-- A class is one that the statements of a module declare, which has been read. -/
structure Declared.IsRead (d : Declared) (scope : Scope) : Prop where
  module : (d.module.name, d.module) ∈ scope.modules
  declaration : d.declaration ∈ d.module.classes

/-! ## What a model has read -/

namespace StaticModel

/-- What a model has read when it started with nothing. -/
structure Grown (tree : FileTree) (model middle : StaticModel) : Prop where
  encoding : middle.encoding = model.encoding
  modules : middle.scope.modules.Keyed SourceModule.name
  isRead : ∀ entry ∈ middle.scope.modules, entry.2.IsRead tree model
  classes : middle.scope.classes.Keyed Declared.qualifiedName
  declared : ∀ entry ∈ middle.scope.classes, entry.2.IsRead middle.scope

theorem Grown.start (tree : FileTree) (hscope : model.scope = {}) : Grown tree model model where
  encoding := rfl
  modules := hscope ▸ .nil
  isRead := hscope ▸ List.forall_mem_nil _
  classes := hscope ▸ .nil
  declared := hscope ▸ List.forall_mem_nil _

/-- Reading one more file keeps what has been read, and adds the module and its classes. -/
theorem Grown.withModule (h : Grown tree model middle) {root : Path} {components : List String}
    {name : String} {isPackage : Bool} {statements : List Stmt} (hroot : root ∈ model.roots)
    (hcomponents : components ∈ filesBelow tree root model.ignoreDirs)
    (hreads : Reads tree middle root components name isPackage statements) :
    Grown tree model (middle.withModule (.ofStatements name ⟨root.root, root.parts ++ components⟩
      isPackage statements)) where
  encoding := h.encoding
  modules := by
    refine ⟨List.forall_mem_append.mpr ⟨h.modules.key, List.forall_mem_singleton.mpr rfl⟩, ?_⟩
    have hnew : name ∉ middle.scope.modules.map (·.1) := by
      rw [← Table.has_iff, hreads.isNew]
      exact Bool.false_ne_true
    change ((middle.scope.modules ++ [(name, SourceModule.ofStatements name
      ⟨root.root, root.parts ++ components⟩ isPackage statements)]).map (·.1)).Nodup
    rw [List.map_append, List.map_singleton, ← List.concat_eq_append]
    exact h.modules.nodup.concat hnew
  isRead := by
    refine List.forall_mem_append.mpr ⟨h.isRead, List.forall_mem_singleton.mpr ?_⟩
    exact ⟨root, components, statements, hroot, hcomponents, hreads.moduleName, rfl,
      h.encoding ▸ hreads.read, rfl⟩
  classes := Scope.keyed_add h.classes _
  declared := by
    -- The classes from before keep their modules, and those of the new one are in it.
    refine List.foldlRecOn (motive := fun classes : Table String Declared =>
      ∀ entry ∈ classes, entry.2.IsRead
        (middle.scope.add (.ofStatements name ⟨root.root, root.parts ++ components⟩ isPackage
          statements))) _ _ (fun entry hentry => ?_) fun classes hclasses c hc entry hentry => ?_
    · obtain ⟨hmodule, hdeclaration⟩ := h.declared entry hentry
      exact ⟨List.mem_append_left _ hmodule, hdeclaration⟩
    · rcases Table.mem_set hentry with rfl | hentry
      · exact ⟨List.mem_append_right _ (List.mem_singleton.mpr rfl), hc⟩
      · exact hclasses entry hentry

/-- A scan that ends well has read its roots, and made the elements of what it has read. -/
theorem of_scan_eq_ok (helements : model.elements = none)
    (h : model.scan tree reports = (scanned, reports', .ok ())) :
    ∃ middle, loadRoots tree model.roots model reports = (middle, reports', .ok ()) ∧
      scanned = { middle with elements := some (elementsOf middle.scope) } := by
  simp only [scan, helements, Option.isSome_none, Bool.false_eq_true, if_false] at h
  split at h
  next => cases (Prod.mk.inj (Prod.mk.inj h).2).2
  next middle _ heq =>
    cases h
    exact ⟨middle, heq, rfl⟩

/-- **What a first scan has read.** -/
theorem grown_of_scan (hscope : model.scope = {}) (helements : model.elements = none)
    (h : model.scan tree reports = (scanned, reports', .ok ())) : Grown tree model scanned := by
  obtain ⟨middle, hroots, rfl⟩ := of_scan_eq_ok helements h
  have hgrown : Grown tree model (loadRoots tree model.roots model reports).1 :=
    loadRoots_induction (fun _ _ hroot _ hcomponents _ _ _ hreads hmiddle =>
      hmiddle.withModule hroot hcomponents hreads) (.start tree hscope) reports
  rw [hroots] at hgrown
  exact ⟨hgrown.encoding, hgrown.modules, hgrown.isRead, hgrown.classes, hgrown.declared⟩

/-- A model that has read nothing has no names. -/
theorem wellNamed_of_empty (hscope : model.scope = {}) (helements : model.elements = none) :
    model.WellNamed := by
  refine ⟨hscope ▸ .empty, ?_⟩
  rw [found, helements]
  exact .nil

/-- What a first scan has found is said in dotted names. -/
theorem wellNamed_of_scan (hscope : model.scope = {}) (helements : model.elements = none)
    (h : model.scan tree reports = (scanned, reports', .ok ())) : scanned.WellNamed := by
  have hscanned := (wellNamed_of_empty hscope helements).scan tree reports
  rwa [h] at hscanned

/-- A file whose text parses is read as its statements. -/
theorem readModule_eq_ok {path : Path} {encoding : String} {text : List Char}
    {statements : List Stmt} (htext : (tree.readText path encoding).toOption = some text)
    (hparse : parseModule? text = some statements) :
    readModule tree path encoding = .ok (.ok statements) := by
  rw [readModule]
  cases hread : tree.readText path encoding with
  | error e =>
    rw [hread] at htext
    cases htext
  | ok read =>
    rw [hread] at htext
    obtain rfl : read = text := Option.some.inj htext
    simp only [hparse]

/-- A file whose statements are read is there. -/
theorem exists_read_of_readModule {path : Path} {encoding : String} {statements : List Stmt}
    (h : readModule tree path encoding = .ok (.ok statements)) :
    ∃ content, tree.read path = .ok content := by
  cases hread : tree.read path with
  | ok content => exact ⟨content, rfl⟩
  | error e =>
    have htext : tree.readText path encoding = .error (.file e) := by
      rw [FileTree.readText, FileTree.readTextWith, hread]
    rw [readModule, htext] at h
    cases h

theorem Grown.exists_read (h : Grown tree model middle) {name : String} {m : SourceModule}
    (hm : (name, m) ∈ middle.scope.modules) : ∃ content, tree.read m.path = .ok content := by
  obtain ⟨_, _, _, hread⟩ := h.isRead _ hm
  exact exists_read_of_readModule hread.read

/-- What has been read of a file makes up the module of the classes that it declares. -/
theorem Grown.exists_readAt (h : Grown tree model middle) {name : String} {d : Declared}
    (hd : (name, d) ∈ middle.scope.classes) {statements : List Stmt}
    (hread : readModule tree d.module.path model.encoding = .ok (.ok statements)) :
    ∃ root components, d.module.ReadAt tree model root components statements := by
  obtain ⟨root, components, read, hreadAt⟩ := h.isRead _ (h.declared _ hd).module
  obtain rfl : read = statements :=
    Except.ok.inj (Except.ok.inj (hreadAt.read.symm.trans hread))
  exact ⟨root, components, hreadAt⟩

/-- A scan that has no fault ends well. -/
theorem eq_of_isOk {result : StaticModel × Reports × Except ScanFault Unit}
    (h : result.2.2.isOk = true) : result = (result.1, result.2.1, .ok ()) := by
  obtain ⟨scanned, reports, fault | ⟨⟩⟩ := result
  · cases h
  · rfl

/-! ## Elements -/

/-- What an element says of its class, markers, kind and modifiers aside. -/
structure Describes (scope : Scope) (d : Declared) (e : Element) : Prop where
  module : e.module = d.module.name
  qualname : e.qualname = d.declaration.qualname
  isPackage : e.isPackage = d.module.isPackage
  sourcePath : e.sourcePath = some d.module.path
  line : e.line = some (d.declaration.line : Int)
  supertypes : e.supertypes = scope.supertypes d

/-- The elements of a table describe classes of a scope. -/
def AllDescribe (scope : Scope) (elements : Table String Element) : Prop :=
  ∀ entry ∈ elements, ∃ d, (entry.1, d) ∈ scope.classes ∧ Describes scope d entry.2

theorem allDescribe_bareElements (scope : Scope) : AllDescribe scope (bareElements scope) := by
  refine List.foldlRecOn (motive := fun found : Table String Element × Answers =>
    AllDescribe scope found.1) _ _ (List.forall_mem_nil _) fun found hfound entry hentry => ?_
  refine List.forall_mem_append.mpr ⟨hfound, List.forall_mem_singleton.mpr ?_⟩
  exact ⟨entry.2, hentry, rfl, rfl, rfl, rfl, rfl, rfl⟩

theorem AllDescribe.mark {elements : Table String Element} (h : AllDescribe scope elements)
    (name : String) (d : Declared) : AllDescribe scope (mark scope elements name d) :=
  forall_mem_mark (P := fun name e => ∃ d, (name, d) ∈ scope.classes ∧ Describes scope d e)
    (fun _ _ _ ⟨d, hd, hdescribes⟩ => ⟨d, hd, hdescribes.1, hdescribes.2, hdescribes.3,
      hdescribes.4, hdescribes.5, hdescribes.6⟩) h name d

/-- **Every element describes a class that has been read.** -/
theorem of_mem_found (helements : model.elements = none)
    (h : model.scan tree reports = (scanned, reports', .ok ())) :
    AllDescribe scanned.scope scanned.found := by
  obtain ⟨middle, -, rfl⟩ := of_scan_eq_ok helements h
  exact List.foldlRecOn _ _ (allDescribe_bareElements middle.scope) fun _ hall _ _ => hall.mark _ _

/-! ### Markers -/

/-- The dotted name that an expression is, parentheses aside. -/
def writtenName? (e : Expr) : Option String :=
  match e.stripped with
  | .name id => some id.text
  | .member value attr => (Expr.member value attr).dotted?
  | _ => none

/-- The constant that an expression is, parentheses aside. -/
def writtenLiteral? (e : Expr) : Option Literal :=
  match e.stripped with
  | .constant l => some l
  | _ => none

/-- A marker's argument that is a dotted name is the class that the name refers to, and one
that is a constant stands for itself. -/
theorem argument?_eq (scope : Scope) (elements : Table String Element) (m : SourceModule)
    (e : Expr) : argument? scope elements m e =
      ((writtenName? e).map fun written =>
        MarkerValue.type (refer scope elements (scope.resolve m written))).or
      ((writtenLiteral? e).map .literal) := by
  rw [argument?, writtenName?, writtenLiteral?]
  cases e.stripped with
  | member value attr => cases hdotted : (Expr.member value attr).dotted? <;> simp [hdotted]
  | _ => rfl

variable {elements : Table String Element} {name other : String} {d : Declared} {e : Element}

/-- The element of a class with the markers that its decorators are when they are read with
a table of elements. -/
def withMarkers (scope : Scope) (elements : Table String Element) (d : Declared) (e : Element) :
    Element :=
  { e with annotations := d.declaration.decorators.filterMap (annotation? scope elements d.module) }

theorem lookup_mark_self (h : elements.lookup name = some e) (d : Declared) :
    (mark scope elements name d).lookup name = some (withMarkers scope elements d e) := by
  rw [mark, h]
  exact Table.lookup_set_self _ _ _

theorem lookup_mark_of_ne (h : other ≠ name) (d : Declared) :
    (mark scope elements name d).lookup other = elements.lookup other := by
  rw [mark]
  split
  next => rfl
  next => exact Table.lookup_set_of_ne h _ _

theorem lookup_foldl_mark_of_notMem {classes : Table String Declared}
    (h : name ∉ classes.map (·.1)) (elements : Table String Element) :
    (classes.foldl (fun elements c => mark scope elements c.1 c.2) elements).lookup name =
      elements.lookup name := by
  induction classes generalizing elements with
  | nil => rfl
  | cons entry rest ih =>
    obtain ⟨hne, hrest⟩ := List.ne_and_not_mem_of_not_mem_cons h
    rw [List.foldl_cons, ih hrest, lookup_mark_of_ne hne]

/-- Each class is marked once, with the elements as they are then. -/
theorem exists_lookup_foldl_mark {classes : Table String Declared}
    (hnodup : (classes.map (·.1)).Nodup) (hd : (name, d) ∈ classes)
    (he : elements.lookup name = some e) (hall : AllDescribe scope elements) :
    ∃ before, AllDescribe scope before ∧
      (classes.foldl (fun elements c => mark scope elements c.1 c.2) elements).lookup name =
        some (withMarkers scope before d e) := by
  induction classes generalizing elements with
  | nil => cases hd
  | cons entry rest ih =>
    obtain ⟨hnew, hrest⟩ := List.nodup_cons.mp hnodup
    rw [List.foldl_cons]
    rcases List.mem_cons.mp hd with rfl | hd
    · exact ⟨elements, hall, (lookup_foldl_mark_of_notMem hnew _).trans (lookup_mark_self he d)⟩
    · refine ih hrest hd ?_ (hall.mark _ _)
      rw [lookup_mark_of_ne _ entry.2]
      · exact he
      · rintro rfl
        exact hnew (List.mem_map.mpr ⟨_, hd, rfl⟩)

/-- **Every class that has been read has an element**, which describes it and carries the
markers that its decorators are. -/
theorem exists_element (hscope : model.scope = {}) (helements : model.elements = none)
    (h : model.scan tree reports = (scanned, reports', .ok ()))
    (hd : (name, d) ∈ scanned.scope.classes) :
    ∃ e before, scanned.found.lookup name = some e ∧ Describes scanned.scope d e ∧
      AllDescribe scanned.scope before ∧
      e.annotations = d.declaration.decorators.filterMap
        (annotation? scanned.scope before d.module) := by
  have hgrown := grown_of_scan hscope helements h
  obtain ⟨middle, -, rfl⟩ := of_scan_eq_ok helements h
  -- Without markers there is an element of this name, and the one class of this name is its.
  have hname : name ∈ (bareElements middle.scope).map (·.1) := by
    have hnames := congrArg (List.map Prod.fst) (bareElements_names middle.scope)
    rw [List.map_map, List.map_map] at hnames
    exact hnames ▸ List.mem_map_of_mem hd
  obtain ⟨bare, hbare⟩ := Option.isSome_iff_exists.mp (Table.has_iff.mpr hname)
  obtain ⟨d', hd', hdescribes⟩ :=
    allDescribe_bareElements middle.scope _ (Table.mem_of_lookup hbare)
  obtain rfl : d' = d := congrArg Prod.snd
    (List.inj_on_of_nodup_map hgrown.classes.nodup hd' hd rfl)
  obtain ⟨before, hall, hlookup⟩ := exists_lookup_foldl_mark hgrown.classes.nodup hd hbare
    (allDescribe_bareElements middle.scope)
  exact ⟨_, before, hlookup, ⟨hdescribes.module, hdescribes.qualname, hdescribes.isPackage,
    hdescribes.sourcePath, hdescribes.line, hdescribes.supertypes⟩, hall, rfl⟩

end StaticModel

end ProviderRegistry.Symbols
