import ProviderRegistry.Proofs.Declarations
import ProviderRegistry.Proofs.Deleting

/-!
# Source files

The files that a scan reads for modules stand in one list, root by root
(`StaticModel.sourceFiles`). When its roots are all there, a scan is a walk along this list
(`StaticModel.scan_eq`): each file adds its module, or is passed over because its module has
been read, or is rejected. In a tree as a system has it the list names each file once
(`StaticModel.nodup_sourceFiles`), and a tree without some of its files has the list without
them (`StaticModel.sourceFiles_sheds`).
-/

namespace ProviderRegistry.Symbols

open Syntax

/-- A file that a scan reads for a module. -/
structure SourceFile where
  path : Path
  module : String
  isPackage : Bool
  deriving DecidableEq, Repr

namespace SourceFile

/-- The report of a file that is rejected. -/
def rejection (f : SourceFile) (reason : String) : Diagnostic :=
  { message := "Could not parse " ++ f.path.text ++ ": " ++ reason }

/-- What bytes are read as: statements, or why they are none. -/
def parse (encoding : Text.Encoding) (bytes : List UInt8) : Except String (List Stmt) :=
  match Text.decode encoding bytes with
  | .error e => .error e.message
  | .ok text =>
    match parseModule? (Text.normalizeNewlines text) with
    | none => .error "SyntaxError"
    | some statements => .ok statements

/-- What a file is read as. -/
def reading (tree : FileTree) (encoding : Text.Encoding) (f : SourceFile) :
    Except String (List Stmt) :=
  match tree.read f.path with
  | .error e => .error e.message
  | .ok bytes => parse encoding bytes

theorem reading_of_read {tree : FileTree} {f : SourceFile} {bytes : List UInt8}
    (h : tree.read f.path = .ok bytes) (encoding : Text.Encoding) :
    f.reading tree encoding = parse encoding bytes := by
  rw [reading, h]

end SourceFile

/-! ## Reading files into a scope -/

namespace Scope

variable (read : SourceFile → Except String (List Stmt))

/-- The scope with the module of a file, unless one of its name has been read. -/
def readFile (scope : Scope) (f : SourceFile) : Scope :=
  if scope.modules.has f.module then scope
  else
    match read f with
    | .error _ => scope
    | .ok statements => scope.add (.ofStatements f.module f.path f.isPackage statements)

/-- Why a file is rejected, if it is. -/
def rejection? (scope : Scope) (f : SourceFile) : Option String :=
  if scope.modules.has f.module then none
  else
    match read f with
    | .error reason => some reason
    | .ok _ => none

/-- The scope with the modules of files. -/
def readFiles (scope : Scope) (files : List SourceFile) : Scope := files.foldl (readFile read) scope

/-- The files that are rejected, with the reasons. -/
def rejections (scope : Scope) : List SourceFile → List (SourceFile × String)
  | [] => []
  | f :: rest =>
    ((scope.rejection? read f).map (f, ·)).toList ++ rejections (scope.readFile read f) rest

variable {read} {scope : Scope} {f : SourceFile} {files : List SourceFile} {reason : String}

theorem rejection?_eq_some_iff : scope.rejection? read f = some reason ↔
    scope.modules.has f.module = false ∧ read f = .error reason := by
  rw [rejection?]
  split
  next h => simp [h]
  next h =>
    cases read f with
    | error e => simp [h]
    | ok statements => simp

theorem readFile_of_rejected (h : scope.rejection? read f = some reason) :
    scope.readFile read f = scope := by
  obtain ⟨hnew, hread⟩ := rejection?_eq_some_iff.mp h
  rw [readFile, hnew, hread]
  rfl

theorem has_readFile (name : String) : (scope.readFile read f).modules.has name = true ↔
    scope.modules.has name = true ∨ f.module = name ∧ ∃ statements, read f = .ok statements := by
  rw [readFile]
  split
  next h =>
    refine (or_iff_left_of_imp ?_).symm
    rintro ⟨rfl, -⟩
    exact h
  next =>
    cases read f with
    | error reason => simp
    | ok statements =>
      rw [Table.has_iff, Table.has_iff]
      simp [add, SourceModule.ofStatements, or_comm, eq_comm]

/-- The modules that have been read are those of the files that can be read as statements. -/
theorem has_readFiles (name : String) : (scope.readFiles read files).modules.has name = true ↔
    scope.modules.has name = true ∨
      ∃ f ∈ files, f.module = name ∧ ∃ statements, read f = .ok statements := by
  rw [readFiles]
  induction files generalizing scope with
  | nil => simp
  | cons f rest ih =>
    rw [List.foldl_cons, ih, has_readFile, List.exists_mem_cons_iff, or_assoc]

theorem rejections_append (before after : List SourceFile) :
    scope.rejections read (before ++ after) =
      scope.rejections read before ++ (scope.readFiles read before).rejections read after := by
  induction before generalizing scope with
  | nil => rfl
  | cons f rest ih =>
    rw [List.cons_append, rejections, ih, rejections, List.append_assoc]
    rfl

/-- Files are rejected in their order, and none twice. -/
theorem rejections_sublist : ((scope.rejections read files).map (·.1)).Sublist files := by
  induction files generalizing scope with
  | nil => exact .slnil
  | cons f rest ih =>
    rw [rejections, List.map_append]
    cases scope.rejection? read f with
    | none => exact ih.cons f
    | some reason => exact ih.cons_cons f

/-- A file is rejected if it is not read as statements, and no file before it has been read
for its module. -/
theorem mem_rejections_iff : (f, reason) ∈ scope.rejections read files ↔
    ∃ before after, files = before ++ f :: after ∧ read f = .error reason ∧
      (scope.readFiles read before).modules.has f.module = false := by
  constructor
  · intro h
    induction files generalizing scope with
    | nil => cases h
    | cons g rest ih =>
      rw [rejections, List.mem_append, Option.mem_toList, Option.map_eq_some_iff] at h
      rcases h with ⟨reason, hg, heq⟩ | h
      · cases heq
        obtain ⟨hnew, hread⟩ := rejection?_eq_some_iff.mp hg
        exact ⟨[], rest, rfl, hread, hnew⟩
      · obtain ⟨before, after, rfl, hread, hnew⟩ := ih h
        exact ⟨g :: before, after, rfl, hread, hnew⟩
  · rintro ⟨before, after, rfl, hread, hnew⟩
    rw [rejections_append, rejections, rejection?_eq_some_iff.mpr ⟨hnew, hread⟩]
    simp

/-- **Rejected files leave no trace.** Without the files that are rejected the same modules are
read, and nothing is rejected. -/
theorem readFiles_filter {keep : SourceFile → Bool} (hnodup : files.Nodup)
    (hkeep : ∀ f ∈ files,
      keep f = false ↔ ∃ reason, (f, reason) ∈ scope.rejections read files) :
    scope.readFiles read (files.filter keep) = scope.readFiles read files ∧
      scope.rejections read (files.filter keep) = [] := by
  -- By induction on the files: a rejected one leaves the scope as it is, another one is kept.
  induction files generalizing scope with
  | nil => exact ⟨rfl, rfl⟩
  | cons f rest ih =>
    obtain ⟨hnotMem, hrest⟩ := List.nodup_cons.mp hnodup
    obtain ⟨hf, hkeep⟩ := List.forall_mem_cons.mp hkeep
    have hlater : ∀ reason, (f, reason) ∉ (scope.readFile read f).rejections read rest :=
      fun reason hmem => hnotMem (rejections_sublist.subset (List.mem_map_of_mem hmem))
    have hsame : ∀ g ∈ rest, keep g = false ↔
        ∃ reason, (g, reason) ∈ (scope.readFile read f).rejections read rest := by
      intro g hg
      have hne : g ≠ f := fun heq => hnotMem (heq ▸ hg)
      rw [hkeep g hg]
      refine exists_congr fun reason => ?_
      rw [rejections, List.mem_append]
      refine or_iff_right fun hmem => ?_
      simp only [Option.mem_toList, Option.map_eq_some_iff] at hmem
      obtain ⟨_, _, heq⟩ := hmem
      exact hne (congrArg Prod.fst heq).symm
    obtain ⟨hscope, hnone⟩ := ih hrest hsame
    rw [rejections] at hf
    cases hrejected : scope.rejection? read f with
    | some reason =>
      have hgone : keep f = false := hf.mpr ⟨reason, by simp [hrejected]⟩
      have hstays := readFile_of_rejected hrejected
      rw [hstays] at hscope hnone
      rw [List.filter_cons_of_neg (Bool.eq_false_iff.mp hgone)]
      refine ⟨hscope.trans ?_, hnone⟩
      rw [readFiles, readFiles, List.foldl_cons, hstays]
    | none =>
      have hkept : keep f = true := by
        rw [← Bool.not_eq_false, hf, hrejected]
        exact fun ⟨reason, hmem⟩ => hlater reason (by simpa using hmem)
      rw [List.filter_cons_of_pos hkept]
      refine ⟨hscope, ?_⟩
      rw [rejections, hrejected, hnone]
      rfl

theorem readFiles_congr {read' : SourceFile → Except String (List Stmt)}
    (h : ∀ f ∈ files, read f = read' f) (scope : Scope) :
    scope.readFiles read files = scope.readFiles read' files ∧
      scope.rejections read files = scope.rejections read' files := by
  induction files generalizing scope with
  | nil => exact ⟨rfl, rfl⟩
  | cons f rest ih =>
    obtain ⟨hf, hrest⟩ := List.forall_mem_cons.mp h
    have hstep : scope.readFile read f = scope.readFile read' f := by
      rw [readFile, readFile, hf]
    obtain ⟨hscope, hrejections⟩ := ih hrest (scope.readFile read' f)
    constructor
    · rw [readFiles, List.foldl_cons, hstep]
      exact hscope
    · rw [rejections, rejections, hstep, hrejections, rejection?, rejection?, hf]

end Scope

namespace StaticModel

/-! ## Scans -/

/-- The file of a relative path below a root, if its name is one of a module. -/
def sourceFile? (root : Path) (components : List String) : Option SourceFile :=
  (moduleName? components).map fun (name, isPackage) =>
    ⟨⟨root.root, root.parts ++ components⟩, name, isPackage⟩

/-- The files below roots that a scan reads for modules. -/
def sourceFiles (tree : FileTree) (ignoreDirs : List String) (roots : List Path) :
    List SourceFile :=
  roots.flatMap fun root => (filesBelow tree root ignoreDirs).filterMap (sourceFile? root)

variable {model : StaticModel} {tree tree' : FileTree} {encoding : Text.Encoding}
  {reports : Reports}

theorem readModule_eq (hencoding : Text.Encoding.ofName? model.encoding = some encoding)
    (tree : FileTree) (f : SourceFile) :
    readModule tree f.path model.encoding = .ok (f.reading tree encoding) := by
  rw [readModule, FileTree.readText, FileTree.readTextWith, SourceFile.reading]
  cases tree.read f.path with
  | error e => rfl
  | ok bytes =>
    simp only [hencoding, SourceFile.parse]
    cases Text.decode encoding bytes with
    | error e => rfl
    | ok text =>
      simp only
      cases parseModule? (Text.normalizeNewlines text) with
      | none => rfl
      | some statements => rfl

/-- The reports with those of files that are rejected. -/
def withRejections (reports : Reports) (rejected : List (SourceFile × String)) : Reports :=
  ⟨reports.diagnostics ++ rejected.map fun (f, reason) => f.rejection reason⟩

theorem withRejections_nil (reports : Reports) : withRejections reports [] = reports := by
  rw [withRejections, List.map_nil, List.append_nil]

theorem withRejections_append (reports : Reports) (rejected more : List (SourceFile × String)) :
    withRejections reports (rejected ++ more) =
      withRejections (withRejections reports rejected) more := by
  simp [withRejections]

/-- The model after reading files. -/
def withFiles (model : StaticModel) (tree : FileTree) (encoding : Text.Encoding)
    (files : List SourceFile) : StaticModel :=
  { model with scope := model.scope.readFiles (·.reading tree encoding) files }

/-- The files that a model rejects when it reads them. -/
def rejections (model : StaticModel) (tree : FileTree) (encoding : Text.Encoding)
    (files : List SourceFile) : List (SourceFile × String) :=
  model.scope.rejections (·.reading tree encoding) files

theorem encoding_withFiles (files : List SourceFile) :
    (model.withFiles tree encoding files).encoding = model.encoding := rfl

theorem withFiles_append (before after : List SourceFile) :
    model.withFiles tree encoding (before ++ after) =
      (model.withFiles tree encoding before).withFiles tree encoding after := by
  rw [withFiles, withFiles, withFiles, Scope.readFiles, Scope.readFiles, Scope.readFiles,
    List.foldl_append]

theorem rejections_append (before after : List SourceFile) :
    model.rejections tree encoding (before ++ after) = model.rejections tree encoding before ++
      (model.withFiles tree encoding before).rejections tree encoding after :=
  Scope.rejections_append before after

theorem load_eq (hencoding : Text.Encoding.ofName? model.encoding = some encoding) (root : Path)
    (components : List String) :
    model.load tree root components reports =
      .ok (model.withFiles tree encoding (sourceFile? root components).toList,
        withRejections reports
          (model.rejections tree encoding (sourceFile? root components).toList)) := by
  rw [load, sourceFile?]
  cases moduleName? components with
  | none =>
    rw [Option.map_none, Option.toList_none, rejections, Scope.rejections, withRejections_nil]
    rfl
  | some found =>
    obtain ⟨name, isPackage⟩ := found
    have hread := readModule_eq hencoding tree
      ⟨⟨root.root, root.parts ++ components⟩, name, isPackage⟩
    simp only at hread
    simp only [Option.map_some, Option.toList_some, rejections, Scope.rejections,
      Scope.rejection?, withFiles, Scope.readFiles, Scope.readFile, List.foldl_cons,
      List.foldl_nil, List.append_nil, hread]
    by_cases hhas : model.scope.modules.has name = true
    · simp only [hhas, if_true]
      rw [Option.map_none, Option.toList_none, withRejections_nil]
    · simp only [hhas, Bool.false_eq_true, if_false]
      cases SourceFile.reading tree encoding
        ⟨⟨root.root, root.parts ++ components⟩, name, isPackage⟩ with
      | error reason => rfl
      | ok statements => rw [Option.map_none, Option.toList_none, withRejections_nil]

theorem loadAll_eq (hencoding : Text.Encoding.ofName? model.encoding = some encoding)
    (root : Path) (files : List (List String)) :
    loadAll tree root files model reports =
      (model.withFiles tree encoding (files.filterMap (sourceFile? root)),
        withRejections reports
          (model.rejections tree encoding (files.filterMap (sourceFile? root))), .ok ()) := by
  induction files generalizing model reports with
  | nil =>
    rw [loadAll, List.filterMap_nil, rejections, Scope.rejections, withRejections_nil]
    rfl
  | cons components rest ih =>
    have hsplit : (components :: rest).filterMap (sourceFile? root) =
        (sourceFile? root components).toList ++ rest.filterMap (sourceFile? root) := by
      rw [List.filterMap_cons]
      cases sourceFile? root components <;> rfl
    have hnext : Text.Encoding.ofName? (model.withFiles tree encoding
        (sourceFile? root components).toList).encoding = some encoding := by
      rw [encoding_withFiles, hencoding]
    rw [loadAll, load_eq hencoding, hsplit, withFiles_append, rejections_append,
      withRejections_append]
    simp only
    rw [ih hnext]

theorem loadRoots_eq (hencoding : Text.Encoding.ofName? model.encoding = some encoding)
    {roots : List Path} (hroots : ∀ root ∈ roots, tree.isDirectory root = .ok true) :
    loadRoots tree roots model reports =
      (model.withFiles tree encoding (sourceFiles tree model.ignoreDirs roots),
        withRejections reports
          (model.rejections tree encoding (sourceFiles tree model.ignoreDirs roots)),
        .ok ()) := by
  induction roots generalizing model reports with
  | nil =>
    rw [loadRoots, sourceFiles, List.flatMap_nil, rejections, Scope.rejections,
      withRejections_nil]
    rfl
  | cons root rest ih =>
    obtain ⟨hroot, hrest⟩ := List.forall_mem_cons.mp hroots
    rw [loadRoots, hroot]
    simp only
    rw [loadAll_eq hencoding, sourceFiles, List.flatMap_cons, withFiles_append,
      rejections_append, withRejections_append]
    exact ih hencoding hrest

/-- **A scan is a walk along its files**, when its roots are all there. -/
theorem scan_eq (helements : model.elements = none)
    (hencoding : Text.Encoding.ofName? model.encoding = some encoding)
    (hroots : ∀ root ∈ model.roots, tree.isDirectory root = .ok true)
    {files : List SourceFile} (hfiles : sourceFiles tree model.ignoreDirs model.roots = files) :
    model.scan tree reports =
      ({ model.withFiles tree encoding files with
          elements := some (elementsOf (model.withFiles tree encoding files).scope) },
        withRejections reports (model.rejections tree encoding files), .ok ()) := by
  simp only [scan, helements, Option.isSome_none, Bool.false_eq_true, if_false,
    loadRoots_eq hencoding hroots, hfiles]

/-! ## The files of a tree -/

/-- The path of an entry from a directory that a scan has come to, if the scan reads it. -/
def scannedBelow? (ignoreDirs : List String) (l : Location) (entry : Location × Node) :
    Option (List String) :=
  match entry.2 with
  | .directory => none
  | .file _ =>
    let components := entry.1.drop l.length
    if l.isPrefixOf entry.1 && isScanned ignoreDirs components then some components else none

variable {ignoreDirs : List String} {root : Path} {l : Location} {components : List String}

/-- Whether a relative path is read before another one, or is as far on. -/
def precedes (a b : List String) : Bool := decide ("/".intercalate a ≤ "/".intercalate b)

theorem precedes_trans (a b c : List String) (hab : precedes a b = true)
    (hbc : precedes b c = true) : precedes a c = true :=
  decide_eq_true (String.le_trans (of_decide_eq_true hab) (of_decide_eq_true hbc))

theorem precedes_total (a b : List String) : (precedes a b || precedes b a) = true := by
  simpa [precedes] using String.le_total _ _

theorem filesBelow_eq (hl : tree.locate root = .ok l) (ignoreDirs : List String) :
    filesBelow tree root ignoreDirs =
      (tree.nodes.filterMap (scannedBelow? ignoreDirs l)).mergeSort precedes := by
  rw [filesBelow, hl]
  rfl

theorem of_scannedBelow? {entry : Location × Node}
    (h : scannedBelow? ignoreDirs l entry = some components) :
    ∃ content, entry = (l ++ components, .file content) := by
  obtain ⟨m, node⟩ := entry
  cases node with
  | directory => cases h
  | file content =>
    simp only [scannedBelow?] at h
    split at h
    next hscanned =>
      obtain ⟨below, rfl⟩ := List.isPrefixOf_iff_prefix.mp (Bool.and_eq_true_iff.mp hscanned).1
      rw [List.drop_left] at h
      exact ⟨content, by rw [Option.some.inj h]⟩
    next => cases h

theorem exists_mem_of_mem_filesBelow (hl : tree.locate root = .ok l)
    (h : components ∈ filesBelow tree root ignoreDirs) :
    ∃ content, (l ++ components, .file content) ∈ tree.nodes := by
  rw [filesBelow_eq hl, List.mem_mergeSort, List.mem_filterMap] at h
  obtain ⟨entry, hentry, hcomponents⟩ := h
  obtain ⟨content, rfl⟩ := of_scannedBelow? hcomponents
  exact ⟨content, hentry⟩

theorem nodup_filesBelow (htree : tree.WellFormed) (hl : tree.locate root = .ok l) :
    (filesBelow tree root ignoreDirs).Nodup := by
  rw [filesBelow_eq hl, (List.mergeSort_perm _ _).nodup_iff]
  -- Put below the directory again, the paths are some of the locations that the tree lists.
  have hsublist (entries : List (Location × Node)) :
      ((entries.filterMap (scannedBelow? ignoreDirs l)).map (l ++ ·)).Sublist
        (entries.map (·.1)) := by
    induction entries with
    | nil => exact .slnil
    | cons entry rest ih =>
      cases hentry : scannedBelow? ignoreDirs l entry with
      | none =>
        rw [List.filterMap_cons_none hentry]
        exact ih.cons _
      | some components =>
        obtain ⟨content, rfl⟩ := of_scannedBelow? hentry
        rw [List.filterMap_cons_some hentry]
        exact ih.cons_cons _
  exact (htree.nodup.sublist (hsublist tree.nodes)).of_map

/-- A file below a root is read by the path of the root. -/
theorem read_of_mem_filesBelow (htree : tree.WellFormed) (hroot : tree.isDirectory root = .ok true)
    (h : components ∈ filesBelow tree root ignoreDirs) :
    tree.reach ⟨root.root, root.parts ++ components⟩ = tree.reach root ++ components ∧
      ∃ content, tree.read ⟨root.root, root.parts ++ components⟩ = .ok content := by
  obtain ⟨l, hl, hdirectory⟩ := FileTree.exists_locate_of_isDirectory hroot
  obtain ⟨content, hcontent⟩ := exists_mem_of_mem_filesBelow hl h
  obtain ⟨hlocate, hread⟩ := htree.read_below hl hdirectory hcontent
  rw [← FileTree.eq_reach_of_locate hlocate, ← FileTree.eq_reach_of_locate hl]
  exact ⟨rfl, content, hread⟩

theorem path_of_sourceFile? {f : SourceFile} (h : sourceFile? root components = some f) :
    f.path = ⟨root.root, root.parts ++ components⟩ := by
  rw [sourceFile?, Option.map_eq_some_iff] at h
  obtain ⟨found, -, rfl⟩ := h
  rfl

variable {roots : List Path} (htree : tree.WellFormed)
  (hroots : ∀ root ∈ roots, tree.isDirectory root = .ok true)

include htree hroots

/-- A file that a scan reads is there. -/
theorem exists_read_of_mem_sourceFiles {f : SourceFile}
    (h : f ∈ sourceFiles tree ignoreDirs roots) :
    (∃ root ∈ roots, tree.reach root <+: tree.reach f.path) ∧
      ∃ content, tree.read f.path = .ok content := by
  obtain ⟨root, hroot, hf⟩ := List.mem_flatMap.mp h
  obtain ⟨components, hcomponents, hfile⟩ := List.mem_filterMap.mp hf
  obtain ⟨hreach, hread⟩ := read_of_mem_filesBelow htree (hroots root hroot) hcomponents
  rw [path_of_sourceFile? hfile]
  exact ⟨⟨root, hroot, hreach ▸ List.prefix_append _ _⟩, hread⟩

/-- **A scan reads each file for one module**, when no root is at or below another. -/
theorem nodup_sourceFiles (hapart : tree.Apart roots) :
    ((sourceFiles tree ignoreDirs roots).map fun f => tree.reach f.path).Nodup := by
  rw [sourceFiles, List.map_flatMap, List.nodup_flatMap]
  have hreach {root : Path} (hroot : root ∈ roots) {f : SourceFile}
      (hf : f ∈ (filesBelow tree root ignoreDirs).filterMap (sourceFile? root)) :
      ∃ components, sourceFile? root components = some f ∧
        tree.reach f.path = tree.reach root ++ components := by
    obtain ⟨components, hcomponents, hfile⟩ := List.mem_filterMap.mp hf
    rw [path_of_sourceFile? hfile]
    exact ⟨components, hfile, (read_of_mem_filesBelow htree (hroots root hroot) hcomponents).1⟩
  constructor
  · -- Below one root the paths differ, and so do the places that they lead to.
    intro root hroot
    obtain ⟨l, hl, -⟩ := FileTree.exists_locate_of_isDirectory (hroots root hroot)
    refine List.Nodup.map_on (fun f hf g hg heq => ?_) ((nodup_filesBelow htree hl).filterMap ?_)
    · obtain ⟨components, hfile, hfreach⟩ := hreach hroot hf
      obtain ⟨components', hfile', hgreach⟩ := hreach hroot hg
      rw [hfreach, hgreach, List.append_cancel_left_eq] at heq
      rw [heq, hfile'] at hfile
      exact (Option.some.inj hfile).symm
    · intro components components' f hf hf'
      have heq := (path_of_sourceFile? hf).symm.trans (path_of_sourceFile? hf')
      exact List.append_cancel_left (congrArg Path.parts heq)
  · -- A file below two roots would have one of them below the other.
    refine hapart.imp_of_mem fun {root root'} hroot hroot' hnot => ?_
    rw [Function.onFun, List.disjoint_left]
    intro m hm hm'
    obtain ⟨f, hf, rfl⟩ := List.mem_map.mp hm
    obtain ⟨g, hg, heq⟩ := List.mem_map.mp hm'
    obtain ⟨_, -, hfreach⟩ := hreach hroot hf
    obtain ⟨_, -, hgreach⟩ := hreach hroot' hg
    have hbelow : tree.reach root <+: tree.reach f.path := ⟨_, hfreach.symm⟩
    have hbelow' : tree.reach root' <+: tree.reach f.path := ⟨_, hgreach.symm.trans heq⟩
    exact (List.prefix_or_prefix_of_prefix hbelow hbelow').elim hnot.1 hnot.2

/-- **A tree without some of its files** has the files that are left, in the same order. -/
theorem sourceFiles_sheds {gone : List Location} (h : tree.Sheds gone tree') :
    sourceFiles tree' ignoreDirs roots =
      (sourceFiles tree ignoreDirs roots).filter fun f => decide (tree.reach f.path ∉ gone) := by
  rw [sourceFiles, sourceFiles, List.filter_flatMap]
  refine List.flatMap_congr fun root hroot => ?_
  obtain ⟨l, hl, -⟩ := FileTree.exists_locate_of_isDirectory (hroots root hroot)
  have hbelow : filesBelow tree' root ignoreDirs = (filesBelow tree root ignoreDirs).filter
      fun components => decide (l ++ components ∉ gone) := by
    rw [filesBelow_eq (h.locate hl), filesBelow_eq hl, h.nodes,
      filter_mergeSort precedes_trans precedes_total, List.filterMap_filter,
      List.filter_filterMap]
    refine congrArg (List.mergeSort · _) (List.filterMap_congr fun entry _ => ?_)
    cases hentry : scannedBelow? ignoreDirs l entry with
    | none => simp
    | some components =>
      obtain ⟨content, rfl⟩ := of_scannedBelow? hentry
      simp [Option.filter]
  rw [hbelow, List.filterMap_filter, List.filter_filterMap]
  refine List.filterMap_congr fun components hcomponents => ?_
  obtain ⟨hreach, -⟩ := read_of_mem_filesBelow htree (hroots root hroot) hcomponents
  rw [← FileTree.eq_reach_of_locate hl] at hreach
  cases hfile : sourceFile? root components with
  | none => simp
  | some f => simp [Option.filter, path_of_sourceFile? hfile, hreach]

end StaticModel

end ProviderRegistry.Symbols
