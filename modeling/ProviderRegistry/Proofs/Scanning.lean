import Mathlib.Data.List.Forall2
import Mathlib.Data.List.Nodup
import ProviderRegistry.Proofs.Sources

/-!
# What a scan reports

A scan visits its roots in order: it reports one that is not there, and below the others
it tries each file whose module it has not read yet and reports one that it cannot decode
and parse (`StaticModel.reports_of_scan`). The classes that it finds are all different
(`StaticModel.nodup_found`).
-/

namespace ProviderRegistry

/-! ## Tables with names for keys -/

namespace Table

variable {α : Type} {name : α → String} {table : Table String α}

/-- Each value stands once, under its name. -/
structure Keyed (name : α → String) (table : Table String α) : Prop where
  key : ∀ entry ∈ table, entry.1 = name entry.2
  nodup : (table.map (·.1)).Nodup

theorem Keyed.nil : Keyed name [] := ⟨List.forall_mem_nil _, List.nodup_nil⟩

theorem keys_set (key : String) (value : α) (table : Table String α) :
    (set key value table).map (·.1) =
      if key ∈ table.map (·.1) then table.map (·.1) else table.map (·.1) ++ [key] := by
  induction table with
  | nil => rfl
  | cons entry rest ih =>
    rw [set]
    -- A key that is there already keeps its place.
    by_cases hkey : entry.1 = key
    · rw [if_pos (by simp [hkey]), List.map_cons, List.map_cons, hkey, if_pos List.mem_cons_self]
    · have hmem : key ∈ (entry :: rest).map (·.1) ↔ key ∈ rest.map (·.1) := by
        rw [List.map_cons, List.mem_cons]
        exact or_iff_right (Ne.symm hkey)
      rw [if_neg (by simp [hkey]), List.map_cons, ih]
      by_cases hrest : key ∈ rest.map (·.1)
      · rw [if_pos hrest, if_pos (hmem.mpr hrest), List.map_cons]
      · rw [if_neg hrest, if_neg fun h => hrest (hmem.mp h), List.map_cons, List.cons_append]

theorem mem_set {key : String} {value : α} {entry : String × α}
    (h : entry ∈ set key value table) : entry = (key, value) ∨ entry ∈ table := by
  induction table with
  | nil => exact .inl (List.mem_singleton.mp h)
  | cons first rest ih =>
    rw [set] at h
    split at h
    next =>
      exact (List.mem_cons.mp h).imp id fun h => List.mem_cons_of_mem _ h
    next =>
      rcases List.mem_cons.mp h with rfl | h
      · exact .inr List.mem_cons_self
      · exact (ih h).imp id fun h => List.mem_cons_of_mem _ h

theorem Keyed.set (h : Keyed name table) (value : α) :
    Keyed name (set (name value) value table) where
  key := by
    intro entry hentry
    rcases mem_set hentry with rfl | hentry
    · rfl
    · exact h.key entry hentry
  nodup := by
    rw [keys_set]
    split
    next => exact h.nodup
    next hkey => exact List.nodup_append.mpr ⟨h.nodup, by simp, fun a ha b hb => by
      rintro rfl
      exact hkey (List.mem_singleton.mp hb ▸ ha)⟩

theorem lookup_eq_some_iff (h : (table.map (·.1)).Nodup) {key : String} {value : α} :
    table.lookup key = some value ↔ (key, value) ∈ table := by
  refine ⟨mem_of_lookup, fun hmem => ?_⟩
  induction table with
  | nil => cases hmem
  | cons entry rest ih =>
    obtain ⟨hentry, hrest⟩ := List.nodup_cons.mp h
    rcases List.mem_cons.mp hmem with rfl | hmem
    · rw [List.lookup_cons_self]
    · have hne : key ≠ entry.1 := by
        rintro rfl
        exact hentry (List.mem_map.mpr ⟨_, hmem, rfl⟩)
      rw [List.lookup_cons, beq_false_of_ne hne]
      exact ih hrest hmem

theorem Keyed.of_lookup (h : Keyed name table) {key : String} {value : α}
    (hlookup : table.lookup key = some value) : key = name value :=
  h.key _ (mem_of_lookup hlookup)

/-- The values of such a table are all different. -/
theorem Keyed.nodup_values (h : Keyed name table) : (table.map (·.2)).Nodup := by
  have hkeys : table.map (·.1) = (table.map (·.2)).map name := by
    rw [List.map_map]
    exact List.map_congr_left h.key
  have hnodup := h.nodup
  rw [hkeys] at hnodup
  exact List.Nodup.of_map name hnodup

end Table

/-! ## Tables side by side -/

namespace Table

variable {κ α β : Type} {R : α → β → Prop}

/-- Two tables have the same keys in the same order, with values that are related. -/
abbrev Pairs (R : α → β → Prop) (table : Table κ α) (table' : Table κ β) : Prop :=
  List.Forall₂ (fun entry entry' => entry'.1 = entry.1 ∧ R entry.2 entry'.2) table table'

variable [BEq κ] {table : Table κ α} {table' : Table κ β}

/-- A key has a value in neither table, or related ones. -/
theorem Pairs.lookup [LawfulBEq κ] (h : Pairs R table table') (key : κ) :
    (table.lookup key = none ∧ table'.lookup key = none) ∨
      ∃ a b, table.lookup key = some a ∧ table'.lookup key = some b ∧ R a b := by
  induction h with
  | nil => exact .inl ⟨rfl, rfl⟩
  | @cons entry entry' rest rest' hentry _ ih =>
    rw [List.lookup_cons, List.lookup_cons, hentry.1]
    by_cases hkey : key = entry.1
    · rw [beq_iff_eq.mpr hkey]
      exact .inr ⟨_, _, rfl, rfl, hentry.2⟩
    · rw [beq_false_of_ne hkey]
      exact ih

theorem Pairs.of_lookup [LawfulBEq κ] (h : Pairs R table table') {key : κ} {a : α}
    (ha : table.lookup key = some a) : ∃ b, table'.lookup key = some b ∧ R a b := by
  rcases h.lookup key with ⟨hnone, -⟩ | ⟨a', b, hsome, hsome', hab⟩
  · rw [hnone] at ha
    cases ha
  · obtain rfl := Option.some.inj (hsome.symm.trans ha)
    exact ⟨b, hsome', hab⟩

theorem Pairs.has_eq [LawfulBEq κ] (h : Pairs R table table') (key : κ) :
    table'.has key = table.has key := by
  rw [has, has]
  rcases h.lookup key with ⟨hnone, hnone'⟩ | ⟨a, b, hsome, hsome', -⟩
  · rw [hnone, hnone']
    rfl
  · rw [hsome, hsome']
    rfl

theorem Pairs.set (h : Pairs R table table') (key : κ) {a : α} {b : β} (hab : R a b) :
    Pairs R (Table.set key a table) (Table.set key b table') := by
  induction h with
  | nil => exact .cons ⟨rfl, hab⟩ .nil
  | @cons entry entry' rest rest' hentry hrest ih =>
    rw [Table.set, Table.set, hentry.1]
    split
    next => exact .cons ⟨rfl, hab⟩ hrest
    next => exact .cons hentry ih

end Table

namespace Symbols

open Syntax

/-! ## Classes found once -/

/-- The name of a class with its module. -/
def Declared.qualifiedName (d : Declared) : String := qualify d.module.name d.declaration.qualname

theorem Scope.keyed_add {scope : Scope} (h : scope.classes.Keyed Declared.qualifiedName)
    (m : SourceModule) : (scope.add m).classes.Keyed Declared.qualifiedName :=
  List.foldlRecOn _ _ h fun _ hclasses c _ => hclasses.set ⟨m, c⟩

namespace StaticModel

/-- Elements are listed in the order of their classes, under the same names. -/
theorem bareElements_names (scope : Scope) :
    (bareElements scope).map (fun entry => (entry.1, entry.2.qualifiedName)) =
      scope.classes.map fun entry => (entry.1, entry.2.qualifiedName) := by
  -- Each step of the fold appends the element of one class.
  have hfold {step : Table String Element × Answers → String × Declared →
        Table String Element × Answers}
      (hstep : ∀ acc entry, (step acc entry).1.map (fun entry => (entry.1, entry.2.qualifiedName)) =
        acc.1.map (fun entry => (entry.1, entry.2.qualifiedName)) ++
          [(entry.1, entry.2.qualifiedName)])
      (classes : Table String Declared) (acc : Table String Element × Answers) :
      (classes.foldl step acc).1.map (fun entry => (entry.1, entry.2.qualifiedName)) =
        acc.1.map (fun entry => (entry.1, entry.2.qualifiedName)) ++
          classes.map fun entry => (entry.1, entry.2.qualifiedName) := by
    induction classes generalizing acc with
    | nil => simp
    | cons entry rest ih =>
      rw [List.foldl_cons, ih, hstep, List.append_assoc]
      rfl
  refine hfold (fun acc entry => ?_) scope.classes ([], {})
  rw [List.map_append]
  rfl

theorem keyed_bareElements {scope : Scope} (h : scope.classes.Keyed Declared.qualifiedName) :
    (bareElements scope).Keyed Element.qualifiedName := by
  have hnames := bareElements_names scope
  constructor
  · intro entry hentry
    have hmem := List.mem_map_of_mem (f := fun entry => (entry.1, entry.2.qualifiedName)) hentry
    rw [hnames] at hmem
    obtain ⟨declared, hdeclared, heq⟩ := List.mem_map.mp hmem
    obtain ⟨hkey, hname⟩ := Prod.mk.inj heq
    rw [← hkey, ← hname, h.key declared hdeclared]
  · have hkeys := congrArg (List.map Prod.fst) hnames
    rw [List.map_map, List.map_map] at hkeys
    exact (congrArg List.Nodup hkeys).mpr h.nodup

/-- Marking changes no more of an element than its annotations. -/
theorem forall_mem_mark {scope : Scope} {elements : Table String Element}
    {P : String → Element → Prop}
    (hannotations : ∀ name e annotations, P name e → P name { e with annotations })
    (h : ∀ entry ∈ elements, P entry.1 entry.2) (name : String) (d : Declared) :
    ∀ entry ∈ mark scope elements name d, P entry.1 entry.2 := by
  rw [mark]
  split
  next => exact h
  next element hlookup =>
    intro entry hentry
    rcases Table.mem_set hentry with rfl | hentry
    · exact hannotations _ _ _ (h (name, element) (Table.mem_of_lookup hlookup))
    · exact h entry hentry

theorem keyed_mark {scope : Scope} {elements : Table String Element}
    (h : elements.Keyed Element.qualifiedName) (name : String) (d : Declared) :
    (mark scope elements name d).Keyed Element.qualifiedName := by
  rw [mark]
  split
  next => exact h
  next element hlookup =>
    obtain rfl := h.of_lookup hlookup
    exact h.set { element with
      annotations := d.declaration.decorators.filterMap (annotation? scope elements d.module) }

theorem keyed_elementsOf {scope : Scope} (h : scope.classes.Keyed Declared.qualifiedName) :
    (elementsOf scope).Keyed Element.qualifiedName :=
  List.foldlRecOn _ _ (keyed_bareElements h) fun _ helements _ _ => keyed_mark helements _ _

variable {model scanned : StaticModel} {tree : FileTree} {reports reports' : Reports}

/-- The classes that a first scan finds are all different. -/
theorem nodup_found (hscope : model.scope = {}) (helements : model.elements = none)
    (h : model.scan tree reports = (scanned, reports', .ok ())) :
    (scanned.found.map (·.2)).Nodup := by
  have hempty : model.scope.classes.Keyed Declared.qualifiedName := by
    rw [hscope]
    exact .nil
  have hkeyed : (loadRoots tree model.roots model reports).1.scope.classes.Keyed
      Declared.qualifiedName :=
    loadRoots_induction (P := fun m => m.scope.classes.Keyed Declared.qualifiedName)
      (fun _ _ _ _ _ _ _ _ _ hmodel => Scope.keyed_add hmodel _) hempty reports
  simp only [scan, helements, Option.isSome_none, Bool.false_eq_true, if_false] at h
  split at h
  next => cases (Prod.mk.inj (Prod.mk.inj h).2).2
  next heq =>
    cases h
    rw [heq] at hkeyed
    exact (keyed_elementsOf hkeyed).nodup_values

/-! ## Visits -/

/-- A file that a scan has tried to read: its module, and why it could not be read, if it
could not. -/
structure Attempt where
  path : Path
  module : String
  refusal? : Option String

/-- The report of a file that could not be read. -/
def Attempt.report? (a : Attempt) : Option Diagnostic :=
  a.refusal?.map fun reason => { message := "Could not parse " ++ a.path.text ++ ": " ++ reason }

/-- The modules that were read. -/
def readModules (attempts : List Attempt) : List String :=
  (attempts.filter (·.refusal?.isNone)).map (·.module)

/-- What a scan tries below a root: the files of modules that have not been read yet. -/
def attemptsBelow (tree : FileTree) (encoding : String) (root : Path) :
    List (List String) → (read : List String) → List Attempt
  | [], _ => []
  | components :: rest, read =>
    match moduleName? components with
    | none => attemptsBelow tree encoding root rest read
    | some (name, _) =>
      if name ∈ read then attemptsBelow tree encoding root rest read
      else
        let path : Path := ⟨root.root, root.parts ++ components⟩
        match readModule tree path encoding with
        | .error _ => []
        | .ok (.error reason) =>
          ⟨path, name, some reason⟩ :: attemptsBelow tree encoding root rest read
        | .ok (.ok _) =>
          ⟨path, name, none⟩ :: attemptsBelow tree encoding root rest (read ++ [name])

/-- How a scan visits a root. -/
inductive Visit where
  | missing (root : Path)
  | entered (attempts : List Attempt)

namespace Visit

/-- The files that a scan has tried. -/
def attempts : Visit → List Attempt
  | missing _ => []
  | entered attempts => attempts

/-- What is reported of a root and the files below it. -/
def diagnostics : Visit → List Diagnostic
  | missing root => [{ message := "Source root not found: " ++ root.text }]
  | entered attempts => attempts.filterMap (·.report?)

end Visit

/-- How a scan visits roots one after another. -/
def visitsOf (tree : FileTree) (encoding : String) (ignoreDirs : List String) :
    List Path → (read : List String) → List Visit
  | [], _ => []
  | root :: rest, read =>
    match tree.isDirectory root with
    | .error _ => []
    | .ok false => .missing root :: visitsOf tree encoding ignoreDirs rest read
    | .ok true =>
      let attempts := attemptsBelow tree encoding root (filesBelow tree root ignoreDirs) read
      .entered attempts ::
        visitsOf tree encoding ignoreDirs rest (read ++ readModules attempts)

/-- How a model that has read nothing visits its roots. -/
def visits (model : StaticModel) (tree : FileTree) : List Visit :=
  visitsOf tree model.encoding model.ignoreDirs model.roots []

/-- The names of the modules that a model has read. -/
def moduleNames (model : StaticModel) : List String := model.scope.modules.map (·.1)

theorem readModules_append (attempts more : List Attempt) :
    readModules (attempts ++ more) = readModules attempts ++ readModules more := by
  rw [readModules, List.filter_append, List.map_append]
  rfl

/-- One file is tried at most, and what comes of it is in the attempt. -/
theorem Loads.exists_attempts {root : Path} {components : List String}
    (h : Loads tree model root components reports scanned reports') (files : List (List String)) :
    ∃ attempts,
      attemptsBelow tree model.encoding root (components :: files) model.moduleNames =
        attempts ++ attemptsBelow tree scanned.encoding root files scanned.moduleNames ∧
      reports'.diagnostics = reports.diagnostics ++ attempts.filterMap (·.report?) ∧
      scanned.moduleNames = model.moduleNames ++ readModules attempts ∧
      scanned.encoding = model.encoding ∧ scanned.ignoreDirs = model.ignoreDirs := by
  cases h with
  | passed hpassed =>
    refine ⟨[], ?_, (List.append_nil _).symm, (List.append_nil _).symm, rfl, rfl⟩
    rw [attemptsBelow]
    cases hname : moduleName? components with
    | none => rfl
    | some found => exact if_pos (Table.has_iff.mp (hpassed found.1 found.2 hname))
  | @rejected name reason isPackage hname hnew hread =>
    have hnotRead : name ∉ model.moduleNames := by rw [moduleNames, ← Table.has_iff, hnew]; simp
    refine ⟨[⟨⟨root.root, root.parts ++ components⟩, name, some reason⟩], ?_, rfl,
      (List.append_nil _).symm, rfl, rfl⟩
    rw [attemptsBelow, hname]
    simp only [if_neg hnotRead, hread]
    rfl
  | @read name isPackage statements hreads =>
    have hnotRead : name ∉ model.moduleNames := by
      rw [moduleNames, ← Table.has_iff, hreads.isNew]
      simp
    have hadd : (model.withModule (.ofStatements name ⟨root.root, root.parts ++ components⟩
        isPackage statements)).moduleNames = model.moduleNames ++ [name] := by
      simp [moduleNames, withModule, Scope.add, SourceModule.ofStatements]
    refine ⟨[⟨⟨root.root, root.parts ++ components⟩, name, none⟩], ?_, (List.append_nil _).symm,
      hadd, rfl, rfl⟩
    rw [attemptsBelow, hreads.moduleName, hadd]
    simp only [if_neg hnotRead, hreads.read]
    rfl

theorem of_loadAll_eq_ok {root : Path} {files : List (List String)}
    (h : loadAll tree root files model reports = (scanned, reports', .ok ())) :
    reports'.diagnostics = reports.diagnostics ++
        (attemptsBelow tree model.encoding root files model.moduleNames).filterMap (·.report?) ∧
      scanned.moduleNames = model.moduleNames ++
        readModules (attemptsBelow tree model.encoding root files model.moduleNames) ∧
      scanned.encoding = model.encoding ∧ scanned.ignoreDirs = model.ignoreDirs := by
  induction files generalizing model reports with
  | nil =>
    cases h
    simp [attemptsBelow, readModules]
  | cons components rest ih =>
    rw [loadAll] at h
    split at h
    next => cases (Prod.mk.inj (Prod.mk.inj h).2).2
    next middle middleReports hfirst =>
      obtain ⟨attempts, hattempts, hreports, hnames, hencoding, hignored⟩ :=
        (loads_of_load hfirst).exists_attempts rest
      obtain ⟨hreports', hnames', hencoding', hignored'⟩ := ih h
      rw [hattempts, List.filterMap_append, readModules_append, ← List.append_assoc,
        ← List.append_assoc, ← hreports, ← hnames]
      exact ⟨hreports', hnames', hencoding'.trans hencoding, hignored'.trans hignored⟩

theorem of_loadRoots_eq_ok {roots : List Path}
    (h : loadRoots tree roots model reports = (scanned, reports', .ok ())) :
    (∀ root ∈ roots, ∃ isThere, tree.isDirectory root = .ok isThere) ∧
      reports'.diagnostics = reports.diagnostics ++
        (visitsOf tree model.encoding model.ignoreDirs roots model.moduleNames).flatMap
          Visit.diagnostics := by
  induction roots generalizing model reports with
  | nil =>
    cases h
    simp [visitsOf]
  | cons root rest ih =>
    rw [loadRoots] at h
    rw [visitsOf, List.forall_mem_cons]
    cases hroot : tree.isDirectory root with
    | error e =>
      rw [hroot] at h
      cases (Prod.mk.inj (Prod.mk.inj h).2).2
    | ok isThere =>
      rw [hroot] at h
      cases isThere with
      | false =>
        obtain ⟨hroots, hreports⟩ := ih h
        refine ⟨⟨⟨false, rfl⟩, hroots⟩, ?_⟩
        rw [hreports]
        simp [Reports.error, Reports.report, Visit.diagnostics]
      | true =>
        simp only at h ⊢
        rcases hfirst : loadAll tree root (filesBelow tree root model.ignoreDirs) model reports with
          ⟨next, middle, result⟩
        rw [hfirst] at h
        cases result with
        | error fault => cases (Prod.mk.inj (Prod.mk.inj h).2).2
        | ok u =>
          -- The later roots start from the modules that were read below this one.
          obtain ⟨hbelow, hnames, hencoding, hignored⟩ := of_loadAll_eq_ok hfirst
          obtain ⟨hroots, hreports⟩ := ih h
          rw [hnames, hencoding, hignored] at hreports
          refine ⟨⟨⟨true, rfl⟩, hroots⟩, ?_⟩
          rw [hreports, hbelow, List.flatMap_cons, Visit.diagnostics, List.append_assoc]

/-- Nothing is reported of roots that are all there and of files that are all read. -/
theorem diagnostics_visitsOf_eq_nil {roots : List Path} (encoding : String)
    (ignoreDirs : List String) (read : List String)
    (h : ∀ root ∈ roots, ∃ isThere, tree.isDirectory root = .ok isThere) :
    (visitsOf tree encoding ignoreDirs roots read).flatMap Visit.diagnostics = [] ↔
      (∀ root ∈ roots, tree.isDirectory root = .ok true) ∧
        ∀ v ∈ visitsOf tree encoding ignoreDirs roots read, ∀ a ∈ v.attempts,
          a.refusal? = none := by
  induction roots generalizing read with
  | nil => simp [visitsOf]
  | cons root rest ih =>
    rw [List.forall_mem_cons] at h
    obtain ⟨⟨isThere, hroot⟩, hrest⟩ := h
    rw [visitsOf, List.forall_mem_cons, hroot]
    cases isThere with
    | false => simp [Visit.diagnostics]
    | true =>
      simp only [List.flatMap_cons, List.append_eq_nil_iff, List.forall_mem_cons, true_and,
        ih _ hrest]
      have hvisit (attempts : List Attempt) : (Visit.entered attempts).diagnostics = [] ↔
          ∀ a ∈ (Visit.entered attempts).attempts, a.refusal? = none := by
        rw [Visit.diagnostics, Visit.attempts, List.filterMap_eq_nil_iff]
        simp only [Attempt.report?, Option.map_eq_none_iff]
      rw [hvisit]
      exact and_left_comm

/-- **What a first scan reports**: each root that is not there, and each file that it could
not read, in the order of its visits. -/
theorem reports_of_scan (hscope : model.scope = {}) (helements : model.elements = none)
    (h : model.scan tree reports = (scanned, reports', .ok ())) :
    reports'.diagnostics = reports.diagnostics ++
        (model.visits tree).flatMap Visit.diagnostics ∧
      ((model.visits tree).flatMap Visit.diagnostics = [] ↔
        (∀ root ∈ model.roots, tree.isDirectory root = .ok true) ∧
          ∀ v ∈ model.visits tree, ∀ a ∈ v.attempts, a.refusal? = none) := by
  simp only [scan, helements, Option.isSome_none, Bool.false_eq_true, if_false] at h
  split at h
  next => cases (Prod.mk.inj (Prod.mk.inj h).2).2
  next heq =>
    cases h
    obtain ⟨hroots, hreports⟩ := of_loadRoots_eq_ok heq
    have hnames : model.moduleNames = [] := by
      rw [moduleNames, hscope]
      rfl
    rw [hnames] at hreports
    exact ⟨hreports, diagnostics_visitsOf_eq_nil _ _ _ hroots⟩

end StaticModel

end Symbols

end ProviderRegistry
