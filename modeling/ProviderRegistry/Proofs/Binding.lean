import Mathlib
import ProviderRegistry.Proofs.Importing

/-!
# Names at a class statement

In a module of imports and class statements, a name at a class statement is what the
statements before it have bound it to last. The static model does not look at the order of
statements: it takes a name for the class of the module that has it, wherever that stands,
and else for what the last import of the name brings. The two agree when the name was bound
to the class of the module if there is one, and when no import further on binds the name to
anything else (`SourceModule.headMeaning?_eq_boundAfter?`).
-/

namespace ProviderRegistry.Symbols

open Syntax

variable {m : SourceModule} {before after statements : List Stmt} {head target : String}

/-! ## Modules of imports and classes -/

/-- Whether a statement is an import or a class statement. -/
def isImportOrClass : Stmt → Bool
  | .classDef _ _ _ _ _ => true
  | .importNames _ => true
  | .importFrom _ _ _ => true
  | _ => false

/-- The name of the class that a statement is about, if it is a class statement. -/
def className? : Stmt → Option String
  | .classDef _ name _ _ _ => some name.text
  | _ => none

/-- The names that a statement of a module binds, each with what it binds them to. -/
def bindingsOf (module : String) (isPackage : Bool) : Stmt → List (String × String)
  | .classDef _ name _ _ _ => [(name.text, qualify module name.text)]
  | s => importsOf (SourceModule.packageOf module isPackage) (.statement s)

namespace SourceModule

/-- What a name is bound to after some statements of a module. -/
def boundAfter? (m : SourceModule) (before : List Stmt) (name : String) : Option String :=
  Table.last? (before.flatMap (bindingsOf m.name m.isPackage)) name

/-- What the imports after some statements of a module bind a name to, those inside
statements included. -/
def importedAfter? (m : SourceModule) (before after : List Stmt) (name : String) :
    Option String :=
  Table.last? ((after.map Block.statement ++ deeperBlocks (before ++ after)).flatMap
    (importsOf (packageOf m.name m.isPackage))) name

/-- Whether what a name is bound to after some statements of a module is what it is bound to
when order does not count: it is the class of the module that has the name if there is one,
and if there is none, no import further on binds it to anything else. -/
structure KeepsBinding (m : SourceModule) (before after : List Stmt) (name target : String) :
    Prop where
  ofClass : name ∈ (before ++ after).filterMap className? → target = qualify m.name name
  ofImport : name ∉ (before ++ after).filterMap className? →
    ∀ later, m.importedAfter? before after name = some later → later = target

end SourceModule

/-! ### Classes -/

mutual

/-- Classes inside a class have longer names than it. -/
theorem lt_length_classesOf {enclosing : String} (h : enclosing ≠ "") :
    (s : Stmt) → ∀ c ∈ classesOf enclosing s,
      (dottedParts enclosing).length < (dottedParts c.qualname).length
  | .classDef line name bases decorators body => by
    have hname : dottedParts (qualify enclosing name.text) =
        dottedParts enclosing ++ [name.text] := by
      rw [qualify_of_ne_empty h, dottedParts_append, dottedParts_of_isIdentifier name.isIdentifier]
    have hlength : (dottedParts enclosing).length <
        (dottedParts (qualify enclosing name.text)).length := by
      rw [hname, List.length_append]
      exact Nat.lt_succ_self _
    have hne : qualify enclosing name.text ≠ "" := by
      rw [qualify_of_ne_empty h]
      simp [← String.toList_eq_nil_iff]
    rw [classesOf, List.forall_mem_cons]
    exact ⟨hlength, fun c hc => hlength.trans (lt_length_classesIn hne body c hc)⟩
  | .ifElse body orelse => by
    rw [classesOf, List.forall_mem_append]
    exact ⟨lt_length_classesIn h body, lt_length_classesIn h orelse⟩
  | .tryExcept body handlers orelse final => by
    simp only [classesOf, List.forall_mem_append]
    exact ⟨⟨⟨lt_length_classesIn h body, lt_length_classesIn h orelse⟩,
      lt_length_classesIn h final⟩, lt_length_classesInGroups h handlers⟩
  | .functionDef _ _ _ => by simp [classesOf]
  | .importNames _ => by simp [classesOf]
  | .importFrom _ _ _ => by simp [classesOf]
  | .assign _ _ => by simp [classesOf]
  | .annotated _ _ => by simp [classesOf]
  | .compound _ _ _ => by simp [classesOf]
  | .expression _ => by simp [classesOf]
  | .simple => by simp [classesOf]

theorem lt_length_classesIn {enclosing : String} (h : enclosing ≠ "") :
    (body : List Stmt) → ∀ c ∈ classesIn enclosing body,
      (dottedParts enclosing).length < (dottedParts c.qualname).length
  | [] => by simp [classesIn]
  | s :: rest => by
    rw [classesIn, List.forall_mem_append]
    exact ⟨lt_length_classesOf h s, lt_length_classesIn h rest⟩

theorem lt_length_classesInGroups {enclosing : String} (h : enclosing ≠ "") :
    (groups : List (List Stmt)) → ∀ c ∈ classesInGroups enclosing groups,
      (dottedParts enclosing).length < (dottedParts c.qualname).length
  | [] => by simp [classesInGroups]
  | body :: rest => by
    rw [classesInGroups, List.forall_mem_append]
    exact ⟨lt_length_classesIn h body, lt_length_classesInGroups h rest⟩

end

/-- The classes at the top of a module of imports and class statements. -/
theorem topLevel_classesIn (hflat : ∀ s ∈ statements, isImportOrClass s = true) :
    ((classesIn "" statements).map (·.qualname)).filter
        (fun name => (dottedParts name).length = 1) =
      statements.filterMap className? := by
  induction statements with
  | nil => simp [classesIn]
  | cons s rest ih =>
    rw [List.forall_mem_cons] at hflat
    rw [classesIn, List.map_append, List.filter_append, ih hflat.2, List.filterMap_cons]
    cases s with
    | classDef line name bases decorators body =>
      have hparts := dottedParts_of_isIdentifier name.isIdentifier
      -- Of the classes that the statement declares, only its own is at the top.
      have hinner : ((classesIn name.text body).map (·.qualname)).filter
          (fun name => (dottedParts name).length = 1) = [] := by
        refine List.filter_eq_nil_iff.mpr fun qualname hqualname => ?_
        obtain ⟨c, hc, rfl⟩ := List.mem_map.mp hqualname
        have hne : name.text ≠ "" := fun he => by
          have hidentifier := name.isIdentifier
          rw [he] at hidentifier
          cases hidentifier
        have hlength := lt_length_classesIn hne body c hc
        rw [hparts] at hlength
        simpa using hlength.ne'
      have htop : qualify "" name.text = name.text := rfl
      rw [classesOf, htop, List.map_cons, List.filter_cons, hinner, if_pos (by simp [hparts])]
      rfl
    | importNames names => rfl
    | importFrom module names level => rfl
    | _ => cases hflat.1

/-! ### Bindings -/

/-- A name that no class statement binds is bound by imports. -/
theorem SourceModule.boundAfter?_of_notMem (m : SourceModule)
    (h : head ∉ before.filterMap className?) :
    m.boundAfter? before head = Table.last? ((before.map Block.statement).flatMap
      (importsOf (packageOf m.name m.isPackage))) head := by
  rw [List.flatMap_map]
  refine Table.last?_flatMap_congr fun s hs => ?_
  cases s with
  | classDef line name bases decorators body =>
    have hne : head ≠ name.text := by
      rintro rfl
      exact h (List.mem_filterMap.mpr ⟨_, hs, rfl⟩)
    rw [bindingsOf, Table.last?_singleton, if_neg hne]
    rfl
  | _ => rfl

namespace SourceModule

variable (hm : m = .ofStatements m.name m.path m.isPackage (before ++ after))

include hm

theorem contains_topLevel_iff (hflat : ∀ s ∈ before ++ after, isImportOrClass s = true) :
    m.topLevel.contains head = true ↔ head ∈ (before ++ after).filterMap className? := by
  have hclasses : m.classes = classesIn "" (before ++ after) := by rw [hm]; rfl
  rw [topLevel, hclasses, topLevel_classesIn hflat, List.contains_iff_mem]

theorem lookup_imports_append :
    m.imports.lookup head = (m.importedAfter? before after head).or
      (Table.last? ((before.map Block.statement).flatMap
        (importsOf (packageOf m.name m.isPackage))) head) := by
  have himports : m.imports.lookup head = Table.last? ((breadthFirst (before ++ after)).flatMap
      (importsOf (packageOf m.name m.isPackage))) head := by
    rw [hm]
    exact lookup_imports _ _ _ _ _
  rw [himports, breadthFirst_eq, List.map_append, List.append_assoc, List.flatMap_append,
    Table.last?_append]
  rfl

/-- **What the static model takes a name for** that some statements of its module have
bound: what they have bound it to last, if the module keeps this binding. -/
theorem headMeaning?_eq_boundAfter? (hflat : ∀ s ∈ before ++ after, isImportOrClass s = true)
    (hbound : m.boundAfter? before head = some target) :
    ∃ taken, Scope.headMeaning? m head = some taken ∧
      (taken = target ↔ m.KeepsBinding before after head target) := by
  rw [Scope.headMeaning?]
  by_cases hclass : head ∈ (before ++ after).filterMap className?
  · -- A class of the module is what its name means, whatever the name was bound to.
    rw [if_pos ((contains_topLevel_iff hm hflat).mpr hclass)]
    refine ⟨_, rfl, fun htaken => ⟨fun _ => htaken.symm, fun hnot => absurd hclass hnot⟩, ?_⟩
    exact fun hkeeps => (hkeeps.ofClass hclass).symm
  · rw [if_neg fun hcontains => hclass ((contains_topLevel_iff hm hflat).mp hcontains)]
    have hbefore : head ∉ before.filterMap className? := by
      rw [List.filterMap_append, List.mem_append, not_or] at hclass
      exact hclass.1
    rw [boundAfter?_of_notMem m hbefore] at hbound
    rw [lookup_imports_append hm, hbound]
    cases hlater : m.importedAfter? before after head with
    | none =>
      refine ⟨target, rfl, fun _ => ⟨fun hmem => absurd hmem hclass, fun _ later hsome => ?_⟩,
        fun _ => rfl⟩
      cases hlater.symm.trans hsome
    | some later =>
      refine ⟨later, rfl, fun htaken => ⟨fun hmem => absurd hmem hclass, fun _ _ hsome => ?_⟩,
        fun hkeeps => hkeeps.ofImport hclass later hlater⟩
      exact (Option.some.inj (hsome.symm.trans hlater)).trans htaken

end SourceModule

/-! ## Names that a scan resolves -/

theorem Scope.resolve_of_headMeaning? {scope : Scope} {written taken : String}
    {rest : List String} (hwritten : dottedParts written = head :: rest)
    (h : Scope.headMeaning? m head = some taken) :
    scope.resolve m written = scope.canonical (joinDots (taken :: rest)) := by
  rw [Scope.resolve, Scope.splitHead, hwritten]
  simp only [h]

namespace StaticModel

variable {model scanned : StaticModel} {tree : FileTree} {reports reports' : Reports}
  {root : Path} {components : List String} {key : String} {d : Declared} {line : Nat}
  {id : Identifier} {bases decorators : List Expr} {body : List Stmt}

/-- **Names at a class statement.** In a module of imports and class statements, the bases
and the markers of a class are what the names that they are written with resolve to. The
first component of such a name that the statements before have bound is taken for what it
has been bound to last, and followed from there, just when the module keeps this binding. -/
theorem names_at_class (hscope : model.scope = {}) (helements : model.elements = none)
    (hscan : model.scan tree reports = (scanned, reports', .ok ()))
    (hd : (key, d) ∈ scanned.scope.classes)
    (hread : d.module.ReadAt tree model root components
      (before ++ .classDef line id bases decorators body :: after))
    (hdeclaration : d.declaration = ⟨id.text, line, bases, decorators, body⟩)
    (hflat : ∀ s ∈ before ++ .classDef line id bases decorators body :: after,
      isImportOrClass s = true) :
    ∃ element elements, scanned.found.lookup key = some element ∧
      element.supertypes = (bases.filterMap (·.dotted?)).map (scanned.scope.resolve d.module) ∧
      element.annotations =
        decorators.filterMap (annotation? scanned.scope elements d.module) ∧
      (∀ e written, writtenName? e = some written →
        argument? scanned.scope elements d.module e =
          some (.type (refer scanned.scope elements (scanned.scope.resolve d.module written)))) ∧
      ∀ written head rest target, dottedParts written = head :: rest →
        d.module.boundAfter? before head = some target →
        ∃ taken, Scope.headMeaning? d.module head = some taken ∧
          scanned.scope.resolve d.module written =
            scanned.scope.canonical (joinDots (taken :: rest)) ∧
          (taken = target ↔ d.module.KeepsBinding before
            (.classDef line id bases decorators body :: after) head target) := by
  obtain ⟨element, elements, hfound, hdescribes, -, hannotations⟩ :=
    exists_element hscope helements hscan hd
  have hsupertypes := hdescribes.supertypes
  rw [Scope.supertypes, hdeclaration] at hsupertypes
  rw [hdeclaration] at hannotations
  refine ⟨element, elements, hfound, hsupertypes, hannotations, ?_, ?_⟩
  · intro e written hwritten
    rw [argument?_eq, hwritten]
    rfl
  · intro written head rest target hwritten hbound
    obtain ⟨taken, htaken, hiff⟩ :=
      SourceModule.headMeaning?_eq_boundAfter? hread.eq hflat hbound
    exact ⟨taken, htaken, Scope.resolve_of_headMeaning? hwritten htaken, hiff⟩

/-! ### A class that is named like its base -/

/-- Of the two names that this module imports, one is also that of a class further on. -/
def shadowingSource : String := "from b import X,Y\nclass C(X):0\nclass Y(Y):0\n"

def shadowingTree : FileTree :=
  ⟨[], [(["q"], .directory), (["q", "m.py"], .file (Text.utf8Bytes shadowingSource.toList))]⟩

def shadowingModel : StaticModel where
  roots := [⟨.none, ["q"]⟩]
  ignoreDirs := []
  encoding := "utf-8"

def shadowingScan : StaticModel × Reports × Except ScanFault Unit :=
  shadowingModel.scan shadowingTree {}

def identifierX : Identifier := ⟨"X", by decide⟩

def identifierY : Identifier := ⟨"Y", by decide⟩

def identifierC : Identifier := ⟨"C", by decide⟩

def shadowingImport : Stmt :=
  .importFrom (some ⟨⟨"b", by decide⟩, []⟩) (some [⟨identifierX, none⟩, ⟨identifierY, none⟩]) 0

/-- A class statement with one base and a body that does nothing. -/
def plainClass (line : Nat) (id base : Identifier) : Stmt :=
  .classDef line id [.name base] [] [.expression (.constant (.int 0))]

def plainDeclaration (line : Nat) (id base : Identifier) : ClassDeclaration :=
  ⟨id.text, line, [.name base], [], [.expression (.constant (.int 0))]⟩

def shadowingStatements : List Stmt :=
  [shadowingImport, plainClass 2 identifierC identifierX, plainClass 3 identifierY identifierY]

theorem readModule_shadowing : readModule shadowingTree ⟨.none, ["q", "m.py"]⟩ "utf-8" =
    .ok (.ok shadowingStatements) :=
  have htext : (shadowingTree.readText ⟨.none, ["q", "m.py"]⟩ "utf-8").toOption =
      some shadowingSource.toList := by decide +kernel
  readModule_eq_ok htext (by cbv)

theorem shadowingScan_eq (h : shadowingScan.2.2.isOk = true) :
    shadowingModel.scan shadowingTree {} = (shadowingScan.1, shadowingScan.2.1, .ok ()) :=
  eq_of_isOk h

/-- What a scan finds out about a class of the module: where it stands and what it derives
from. -/
def ShadowingFinds (name qualname : String) (supertypes : List String) : Prop :=
  (shadowingScan.1.scope.classes.lookup name).map (fun d =>
      (d.module.name, d.module.path, d.module.isPackage, d.declaration.qualname)) =
    some ("m", ⟨.none, ["q", "m.py"]⟩, false, qualname) ∧
  (shadowingScan.1.found.lookup name).map (·.supertypes) = some supertypes

instance (name qualname : String) (supertypes : List String) :
    Decidable (ShadowingFinds name qualname supertypes) := inferInstanceAs (Decidable (_ ∧ _))

theorem finds_shadowingScan : shadowingScan.2.2.isOk = true ∧
    ShadowingFinds "m.C" "C" ["b.X"] ∧ ShadowingFinds "m.Y" "Y" ["m.Y"] ∧
    shadowingScan.1.scope.canonical "b.Y" = "b.Y" := by
  decide +kernel

/-- The classes of the module, each as its statement declares it. -/
theorem shadowing_declared {name qualname : String} {supertypes : List String}
    (h : ShadowingFinds name qualname supertypes) :
    ∃ d root components, (name, d) ∈ shadowingScan.1.scope.classes ∧
      d.module.name = "m" ∧ d.module.isPackage = false ∧
      d.module.ReadAt shadowingTree shadowingModel root components shadowingStatements ∧
      d.declaration.qualname = qualname ∧
      d.declaration ∈ [plainDeclaration 2 identifierC identifierX,
        plainDeclaration 3 identifierY identifierY] := by
  obtain ⟨d, hd, hplace⟩ := Option.map_eq_some_iff.mp h.1
  simp only [Prod.mk.injEq] at hplace
  obtain ⟨hname, hpath, hpackage, hqualname⟩ := hplace
  have hmem := Table.mem_of_lookup hd
  have hgrown := grown_of_scan rfl rfl (shadowingScan_eq finds_shadowingScan.1)
  obtain ⟨root, components, hread⟩ :=
    hgrown.exists_readAt hmem (by rw [hpath]; exact readModule_shadowing)
  have hdeclared := (hgrown.declared _ hmem).declaration
  rw [hread.eq] at hdeclared
  exact ⟨d, root, components, hmem, hname, hpackage, hread, hqualname, hdeclared⟩

/-- The class that derives from the name that no class of the module has, and what it is
taken for: what the import has bound the name to. -/
theorem names_at_class_imported : ∃ d element, ("m.C", d) ∈ shadowingScan.1.scope.classes ∧
    shadowingScan.1.found.lookup "m.C" = some element ∧
    d.module.boundAfter? [shadowingImport] "X" = some "b.X" ∧
    Scope.headMeaning? d.module "X" = some "b.X" ∧
    element.supertypes = [shadowingScan.1.scope.canonical "b.X"] := by
  obtain ⟨hok, hfinds, -⟩ := finds_shadowingScan
  obtain ⟨d, root, components, hd, hname, hpackage, hread, hqualname, hmem⟩ :=
    shadowing_declared hfinds
  have hdeclaration : d.declaration = plainDeclaration 2 identifierC identifierX := by
    rcases List.mem_cons.mp hmem with heq | hmem
    · exact heq
    · rw [List.mem_singleton.mp hmem] at hqualname
      exact absurd hqualname (by decide)
  have hread' : d.module.ReadAt shadowingTree shadowingModel root components ([shadowingImport] ++
      plainClass 2 identifierC identifierX :: [plainClass 3 identifierY identifierY]) := hread
  obtain ⟨element, _, hfound, hsupertypes, -, -, hnames⟩ :=
    names_at_class rfl rfl (shadowingScan_eq hok) hd hread' hdeclaration (by decide)
  have hbound : d.module.boundAfter? [shadowingImport] "X" = some "b.X" := by
    rw [SourceModule.boundAfter?, hname, hpackage]
    decide
  obtain ⟨taken, htaken, hresolve, hiff⟩ := hnames "X" "X" [] "b.X" (by decide) hbound
  -- No class of the module is named `X`, and no further import names it.
  obtain rfl : taken = "b.X" := by
    refine hiff.mpr ⟨fun hclass => absurd hclass (by decide), fun _ later hlater => ?_⟩
    rw [SourceModule.importedAfter?, hname, hpackage] at hlater
    exact absurd (Option.isSome_of_eq_some hlater) (by decide)
  exact ⟨d, element, hd, hfound, hbound, htaken,
    hsupertypes.trans (congrArg (fun name => [name]) hresolve)⟩

/-- The class that has the name of its base is taken to derive from itself. -/
theorem base_taken_for_itself :
    ¬ ∀ (model scanned : StaticModel) (tree : FileTree) (reports reports' : Reports)
      (root : Path) (components : List String) (key : String) (d : Declared)
      (before after : List Stmt) (line : Nat) (id : Identifier) (bases decorators : List Expr)
      (body : List Stmt) (written head target : String) (rest : List String),
      model.scope = {} → model.elements = none →
      model.scan tree reports = (scanned, reports', .ok ()) →
      (key, d) ∈ scanned.scope.classes →
      d.module.ReadAt tree model root components
        (before ++ .classDef line id bases decorators body :: after) →
      d.declaration = ⟨id.text, line, bases, decorators, body⟩ →
      (∀ s ∈ before ++ .classDef line id bases decorators body :: after,
        isImportOrClass s = true) →
      written ∈ bases.filterMap (·.dotted?) → dottedParts written = head :: rest →
      d.module.boundAfter? before head = some target →
      scanned.scope.resolve d.module written =
        scanned.scope.canonical (joinDots (target :: rest)) := by
  intro h
  obtain ⟨hok, -, hfinds, hcanonical⟩ := finds_shadowingScan
  obtain ⟨d, root, components, hd, hname, hpackage, hread, hqualname, hmem⟩ :=
    shadowing_declared hfinds
  have hdeclaration : d.declaration = plainDeclaration 3 identifierY identifierY := by
    rcases List.mem_cons.mp hmem with heq | hmem
    · rw [heq] at hqualname
      exact absurd hqualname (by decide)
    · exact List.mem_singleton.mp hmem
  have hbound : d.module.boundAfter?
      [shadowingImport, plainClass 2 identifierC identifierX] "Y" = some "b.Y" := by
    rw [SourceModule.boundAfter?, hname, hpackage]
    decide
  have hscan := shadowingScan_eq hok
  have hresolve := h _ _ _ _ _ root components _ d
    [shadowingImport, plainClass 2 identifierC identifierX] [] _ _ _ _ _ "Y" "Y" "b.Y" [] rfl rfl
    hscan hd hread hdeclaration (by decide) (by decide) (by decide) hbound
  obtain ⟨element, _, hfound, hdescribes, -⟩ := exists_element rfl rfl hscan hd
  have hsupertypes : element.supertypes = [shadowingScan.1.scope.resolve d.module "Y"] := by
    rw [hdescribes.supertypes, Scope.supertypes, hdeclaration]
    rfl
  have hown := hfinds.2
  have himported : shadowingScan.1.scope.canonical (joinDots ["b.Y"]) = "b.Y" := hcanonical
  rw [hfound, Option.map_some, hsupertypes, hresolve, himported] at hown
  exact absurd hown (by decide)

end StaticModel

end ProviderRegistry.Symbols
