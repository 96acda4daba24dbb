import ProviderRegistry.Proofs.Mirroring

/-!
# Scans of two trees

A scan goes through the same files of two trees that have them at the same places
(`FileTree.Alike`). If the statements of each file make up related modules in the two trees, then
what the scans have read is related, too, and they report the same
(`StaticModel.exists_scan_of_rereads`).
-/

namespace ProviderRegistry

/-! ## Trees of one shape -/

namespace FileTree

/-- Two trees have their files and directories at the same places. -/
structure Alike (tree tree' : FileTree) : Prop where
  home : tree'.home = tree.home
  nodes : Table.Pairs (fun node node' => node' = .directory ↔ node = .directory) tree.nodes
    tree'.nodes

variable {tree tree' : FileTree}

namespace Alike

variable (h : tree.Alike tree')

include h

theorem node? (l : Location) :
    tree'.node? l = some .directory ↔ tree.node? l = some .directory := by
  rw [FileTree.node?, FileTree.node?, h.home]
  split
  next => rfl
  next =>
    rcases h.nodes.lookup l with ⟨hnone, hnone'⟩ | ⟨node, node', hsome, hsome', hiff⟩
    · rw [hnone, hnone']
    · rw [hsome, hsome', Option.some.injEq, Option.some.injEq, hiff]

theorem node?_eq_none (l : Location) : tree'.node? l = none ↔ tree.node? l = none := by
  rw [FileTree.node?, FileTree.node?, h.home]
  split
  next => exact iff_of_false (Option.some_ne_none _) (Option.some_ne_none _)
  next =>
    rcases h.nodes.lookup l with ⟨hnone, hnone'⟩ | ⟨node, node', hsome, hsome', -⟩
    · rw [hnone, hnone']
    · rw [hsome, hsome']
      exact iff_of_false (Option.some_ne_none _) (Option.some_ne_none _)

theorem follow_eq (here : Location) (parts : List String) :
    follow tree' here parts = follow tree here parts := by
  induction parts generalizing here with
  | nil => rfl
  | cons part rest ih =>
    rw [follow, follow]
    split
    next => rfl
    next =>
      cases rest with
      | nil => rfl
      | cons next rest =>
        simp only
        rcases hnode : tree.node? (enter here part) with _ | (content | _)
        · rw [(h.node?_eq_none _).mpr hnode]
        · rcases hnode' : tree'.node? (enter here part) with _ | (content' | _)
          · cases ((h.node?_eq_none _).mp hnode').symm.trans hnode
          · rfl
          · cases ((h.node? _).mp hnode').symm.trans hnode
        · rw [(h.node? _).mpr hnode]
          exact ih _

theorem locate_eq (p : Path) : tree'.locate p = tree.locate p := by
  rw [locate, locate, start, start, h.home, h.follow_eq]

theorem isDirectory_eq (p : Path) : tree'.isDirectory p = tree.isDirectory p := by
  rw [isDirectory, isDirectory, find?, find?, h.locate_eq]
  cases hlocate : tree.locate p with
  | error e => rfl
  | ok l =>
    simp only
    rcases hnode : tree.node? l with _ | (content | _)
    · rw [(h.node?_eq_none _).mpr hnode]
    · rcases hnode' : tree'.node? l with _ | (content' | _)
      · rfl
      · rfl
      · cases ((h.node? _).mp hnode').symm.trans hnode
    · rw [(h.node? _).mpr hnode]

/-- A scan goes through the same files. -/
theorem filesBelow_eq (root : Path) (ignoreDirs : List String) :
    Symbols.StaticModel.filesBelow tree' root ignoreDirs =
      Symbols.StaticModel.filesBelow tree root ignoreDirs := by
  rw [Symbols.StaticModel.filesBelow, Symbols.StaticModel.filesBelow, h.locate_eq]
  cases tree.locate root with
  | error e => rfl
  | ok l =>
    refine congrArg (fun found => List.mergeSort found _) (filterMap_eq_of_forall₂ h.nodes ?_)
    rintro ⟨m, node⟩ ⟨m', node'⟩ ⟨hm, hiff⟩
    obtain rfl : m' = m := hm
    rcases node with content | _ <;> rcases node' with content' | _
    · rfl
    · cases hiff.mp rfl
    · cases hiff.mpr rfl
    · rfl

end Alike

end FileTree

namespace Symbols

open Syntax

/-- Setting keys in related tables keeps them related. -/
theorem pairs_foldl_set {α β γ δ : Type} {R : α → β → Prop} {S : γ → δ → Prop} {l : List γ}
    {l' : List δ} {key : γ → String} {value : γ → α} {key' : δ → String} {value' : δ → β}
    (hl : List.Forall₂ S l l') (hset : ∀ c c', S c c' → key' c' = key c ∧ R (value c) (value' c'))
    {table : Table String α} {table' : Table String β} (h : Table.Pairs R table table') :
    Table.Pairs R (l.foldl (fun table c => Table.set (key c) (value c) table) table)
      (l'.foldl (fun table c => Table.set (key' c) (value' c) table) table') := by
  induction hl generalizing table table' with
  | nil => exact h
  | @cons c c' rest rest' hc _ ih =>
    obtain ⟨hkey, hvalue⟩ := hset c c' hc
    rw [List.foldl_cons, List.foldl_cons, hkey]
    exact ih (h.set _ hvalue)

/-- A relation between modules by which they have the same name, and the same classes one by one,
up to a relation between classes. -/
structure Corresponds (S : SourceModule → SourceModule → Prop) (D : Declared → Declared → Prop) :
    Prop where
  name : ∀ m m', S m m' → m'.name = m.name
  classes : ∀ m m', S m m' → List.Forall₂
    (fun c c' => c'.qualname = c.qualname ∧ D ⟨m, c⟩ ⟨m', c'⟩) m.classes m'.classes

/-- Reading a file gives statements that make up related modules in two trees, or the same in
both. -/
inductive Rereads (S : SourceModule → SourceModule → Prop) (path : Path) :
    Except ScanFault (Except String (List Stmt)) →
      Except ScanFault (Except String (List Stmt)) → Prop
  | fault (fault) : Rereads S path (.error fault) (.error fault)
  | rejected (reason) : Rereads S path (.ok (.error reason)) (.ok (.error reason))
  | read {statements statements'} (h : ∀ name isPackage, S
      (.ofStatements name path isPackage statements) (.ofStatements name path isPackage statements')) :
      Rereads S path (.ok (.ok statements)) (.ok (.ok statements'))

/-- Two models that were the same at the start have read related modules. -/
structure ReadAlike (start : StaticModel) (S : SourceModule → SourceModule → Prop)
    (D : Declared → Declared → Prop) (model model' : StaticModel) : Prop where
  roots : model'.roots = model.roots
  ignoreDirs : model.ignoreDirs = start.ignoreDirs
  ignoreDirs' : model'.ignoreDirs = start.ignoreDirs
  encoding : model.encoding = start.encoding
  encoding' : model'.encoding = start.encoding
  modules : Table.Pairs S model.scope.modules model'.scope.modules
  classes : Table.Pairs D model.scope.classes model'.scope.classes

variable {start model model' loaded scanned : StaticModel} {tree tree' : FileTree}
  {reports reports' : Reports} {S : SourceModule → SourceModule → Prop}
  {D : Declared → Declared → Prop}

namespace ReadAlike

variable {components : List String} {root : Path}

theorem refl_of_empty (start : StaticModel) (hscope : start.scope = {}) :
    ReadAlike start S D start start where
  roots := rfl
  ignoreDirs := rfl
  ignoreDirs' := rfl
  encoding := rfl
  encoding' := rfl
  modules := hscope ▸ .nil
  classes := hscope ▸ .nil

variable (hS : Corresponds S D) (h : ReadAlike start S D model model')

include hS h

theorem withModule {m m' : SourceModule} (hm : S m m') :
    ReadAlike start S D (model.withModule m) (model'.withModule m') where
  roots := h.roots
  ignoreDirs := h.ignoreDirs
  ignoreDirs' := h.ignoreDirs'
  encoding := h.encoding
  encoding' := h.encoding'
  modules := List.rel_append h.modules (.cons ⟨hS.name m m' hm, hm⟩ .nil)
  classes := by
    change Table.Pairs _
      (m.classes.foldl (fun classes c => Table.set (qualify m.name c.qualname) ⟨m, c⟩ classes)
        model.scope.classes)
      (m'.classes.foldl (fun classes c => Table.set (qualify m'.name c.qualname) ⟨m', c⟩ classes)
        model'.scope.classes)
    rw [hS.name m m' hm]
    exact pairs_foldl_set (hS.classes m m' hm) (fun c c' hc => ⟨by rw [hc.1], hc.2⟩) h.classes

/-- If the one model reads a file, so does the other. -/
theorem load
    (hreading : Rereads S ⟨root.root, root.parts ++ components⟩
      (StaticModel.readModule tree ⟨root.root, root.parts ++ components⟩ start.encoding)
      (StaticModel.readModule tree' ⟨root.root, root.parts ++ components⟩ start.encoding))
    (hload : model.load tree root components reports = .ok (loaded, reports')) :
    ∃ loaded', model'.load tree' root components reports = .ok (loaded', reports') ∧
      ReadAlike start S D loaded loaded' := by
  rw [StaticModel.load] at hload ⊢
  cases hname : StaticModel.moduleName? components with
  | none =>
    rw [hname] at hload
    cases hload
    exact ⟨model', rfl, h⟩
  | some named =>
    obtain ⟨name, isPackage⟩ := named
    have hreading : Rereads S ⟨root.root, root.parts ++ components⟩
        (StaticModel.readModule tree ⟨root.root, root.parts ++ components⟩ model.encoding)
        (StaticModel.readModule tree' ⟨root.root, root.parts ++ components⟩ model'.encoding) := by
      rw [h.encoding, h.encoding']
      exact hreading
    simp only [hname] at hload
    simp only [h.modules.has_eq]
    split at hload
    next hhas =>
      cases hload
      exact ⟨model', if_pos hhas, h⟩
    next hhas =>
      rw [if_neg hhas]
      generalize StaticModel.readModule tree ⟨root.root, root.parts ++ components⟩
        model.encoding = reading at hreading hload
      generalize StaticModel.readModule tree' ⟨root.root, root.parts ++ components⟩
        model'.encoding = reading' at hreading
      cases hreading with
      | fault fault => cases hload
      | rejected reason =>
        cases hload
        exact ⟨model', rfl, h⟩
      | read hm =>
        cases hload
        exact ⟨_, rfl, h.withModule hS (hm name isPackage)⟩

theorem loadAll {files : List (List String)}
    (hreadings : ∀ components ∈ files, Rereads S ⟨root.root, root.parts ++ components⟩
      (StaticModel.readModule tree ⟨root.root, root.parts ++ components⟩ start.encoding)
      (StaticModel.readModule tree' ⟨root.root, root.parts ++ components⟩ start.encoding))
    (hload : StaticModel.loadAll tree root files model reports = (loaded, reports', .ok ())) :
    ∃ loaded', StaticModel.loadAll tree' root files model' reports = (loaded', reports', .ok ()) ∧
      ReadAlike start S D loaded loaded' := by
  induction files generalizing model model' reports with
  | nil =>
    cases hload
    exact ⟨model', rfl, h⟩
  | cons components rest ih =>
    rw [List.forall_mem_cons] at hreadings
    rw [StaticModel.loadAll] at hload ⊢
    split at hload
    next => cases (Prod.mk.inj (Prod.mk.inj hload).2).2
    next first firstReports hfirst =>
      obtain ⟨first', hfirst', hread⟩ := h.load hS hreadings.1 hfirst
      rw [hfirst']
      exact ih hread hreadings.2 hload

theorem loadRoots {roots : List Path} (htree : tree.Alike tree')
    (hreadings : ∀ root ∈ roots,
      ∀ components ∈ StaticModel.filesBelow tree root start.ignoreDirs,
        Rereads S ⟨root.root, root.parts ++ components⟩
          (StaticModel.readModule tree ⟨root.root, root.parts ++ components⟩ start.encoding)
          (StaticModel.readModule tree' ⟨root.root, root.parts ++ components⟩ start.encoding))
    (hload : StaticModel.loadRoots tree roots model reports = (loaded, reports', .ok ())) :
    ∃ loaded', StaticModel.loadRoots tree' roots model' reports = (loaded', reports', .ok ()) ∧
      ReadAlike start S D loaded loaded' := by
  induction roots generalizing model model' reports with
  | nil =>
    cases hload
    exact ⟨model', rfl, h⟩
  | cons root rest ih =>
    rw [List.forall_mem_cons] at hreadings
    rw [StaticModel.loadRoots] at hload ⊢
    rw [htree.isDirectory_eq, htree.filesBelow_eq, h.ignoreDirs']
    rw [h.ignoreDirs] at hload
    split at hload
    next => cases (Prod.mk.inj (Prod.mk.inj hload).2).2
    next heq =>
      exact ih h hreadings.2 hload
    next heq =>
      split at hload
      next => cases (Prod.mk.inj (Prod.mk.inj hload).2).2
      next first firstReports hfirst =>
        obtain ⟨first', hfirst', hread⟩ := h.loadAll hS hreadings.1 hfirst
        simp only [hfirst']
        exact ih hread hreadings.2 hload

end ReadAlike

/-- Two trees have their files at the same places, and each file that a model scans gives related
modules, or the same report. -/
structure RereadsTree (S : SourceModule → SourceModule → Prop) (model : StaticModel)
    (tree tree' : FileTree) : Prop where
  alike : tree.Alike tree'
  readings : ∀ root ∈ model.roots,
    ∀ components ∈ StaticModel.filesBelow tree root model.ignoreDirs,
      Rereads S ⟨root.root, root.parts ++ components⟩
        (StaticModel.readModule tree ⟨root.root, root.parts ++ components⟩ model.encoding)
        (StaticModel.readModule tree' ⟨root.root, root.parts ++ components⟩ model.encoding)

/-- **What scans of two trees read** is related if the modules in their files are. -/
theorem StaticModel.exists_scan_of_rereads (hS : Corresponds S D) (hscope : model.scope = {})
    (helements : model.elements = none) (hrereads : RereadsTree S model tree tree')
    (hscan : model.scan tree reports = (scanned, reports', .ok ())) :
    ∃ scanned', model.scan tree' reports = (scanned', reports', .ok ()) ∧
      ReadAlike model S D scanned scanned' ∧
      scanned'.elements = some (elementsOf scanned'.scope) := by
  obtain ⟨middle, hroots, rfl⟩ := of_scan_eq_ok helements hscan
  obtain ⟨middle', hroots', hread⟩ := (ReadAlike.refl_of_empty model hscope).loadRoots hS
    hrereads.alike hrereads.readings hroots
  refine ⟨{ middle' with elements := some (elementsOf middle'.scope) }, ?_, ?_, rfl⟩
  · simp only [scan, helements, Option.isSome_none, Bool.false_eq_true, if_false, hroots']
  · exact ⟨hread.roots, hread.ignoreDirs, hread.ignoreDirs', hread.encoding, hread.encoding',
      hread.modules, hread.classes⟩

end Symbols

end ProviderRegistry
