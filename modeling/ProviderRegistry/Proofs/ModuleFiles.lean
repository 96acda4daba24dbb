import ProviderRegistry.Proofs.SourceFiles

/-!
# The file of a module

A module can stand in two files below a root, its own file or that of a package. A scan comes to
the roots in their order, and below a root to the file of the plain module before that of the
package, since a dot sorts before a slash. It reads the first one it comes to
(`StaticModel.lookup_scan`), which is not always the one that an import takes.
-/

namespace ProviderRegistry

/-! ## Files and directories at paths -/

namespace FileTree

/-- Whether a file stands at a path. -/
def hasFile (tree : FileTree) (p : Path) : Bool := tree.isFile p matches .ok true

/-- Whether a directory stands at a path. -/
def hasDirectory (tree : FileTree) (p : Path) : Bool := tree.isDirectory p matches .ok true

variable {tree : FileTree} {p root : Path} {l : Location} {components : List String}

theorem hasFile_iff : tree.hasFile p = true ↔ ∃ content, tree.read p = .ok content := by
  rw [hasFile, isFile, read]
  cases tree.find? p with
  | error e => cases e <;> simp
  | ok found =>
    cases found with
    | none => simp
    | some node => cases node <;> simp

theorem hasDirectory_iff : tree.hasDirectory p = true ↔ tree.isDirectory p = .ok true := by
  rw [hasDirectory]
  rcases tree.isDirectory p with e | b
  · simp
  · cases b <;> simp

theorem isDirectory_of_locate (hl : tree.locate p = .ok l)
    (hdirectory : tree.node? l = some .directory) : tree.isDirectory p = .ok true := by
  rw [isDirectory, find?, hl]
  simp only [hdirectory]

/-- What has a file below it is a directory. -/
theorem isDirectory_of_hasFile_below (hne : components ≠ [])
    (h : tree.hasFile (root.below components) = true) : tree.isDirectory root = .ok true := by
  obtain ⟨content, hread⟩ := hasFile_iff.mp h
  obtain ⟨hnull, hfollow⟩ := locate_eq_ok_iff.mp (read_eq_ok.mp hread).1
  obtain ⟨middle, hmiddle, hdirectory⟩ :=
    exists_follow_of_append hne (node?_start tree (root.below components)) hfollow
  rw [Path.hasNull, Path.below, List.any_append, Bool.or_eq_false_iff] at hnull
  exact isDirectory_of_locate (locate_eq_ok_iff.mpr ⟨hnull.1, hmiddle⟩) hdirectory

/-- A file stands at a path below a directory just if the tree lists it there. -/
theorem WellFormed.hasFile_below_iff (htree : tree.WellFormed) (hl : tree.locate root = .ok l)
    (hdirectory : tree.node? l = some .directory) (hdots : ".." ∉ components) :
    tree.hasFile (root.below components) = true ↔
      ∃ content, (l ++ components, .file content) ∈ tree.nodes := by
  rw [hasFile_iff]
  constructor
  · rintro ⟨content, hread⟩
    have hfile := node?_of_file? (read_eq_ok.mp hread).2
    rw [reach_below hdots, ← eq_reach_of_locate hl] at hfile
    rcases mem_of_node? hfile with hhome | hmem
    · rw [directory_of_isPrefix_home hhome] at hfile
      cases hfile
    · exact ⟨content, hmem⟩
  · rintro ⟨content, hmem⟩
    exact ⟨content, (htree.read_below hl hdirectory hmem).2⟩

/-- No directory has a name that is ignored. -/
def IgnoresNothing (tree : FileTree) (ignoreDirs : List String) : Prop :=
  ∀ l name, tree.node? (l ++ [name]) = some .directory → name ∉ ignoreDirs

end FileTree

namespace Symbols.StaticModel

variable {tree : FileTree} {root : Path} {l : Location} {ignoreDirs components : List String}
  {name : String}

theorem ne_nil_of_isScanned (h : isScanned ignoreDirs components = true) : components ≠ [] := by
  obtain ⟨before, stem, rfl, -⟩ := exists_stem h
  simp

/-- Which files below a root a scan comes to. -/
theorem mem_filesBelow_iff (htree : tree.WellFormed) (hdots : ".." ∉ components) :
    components ∈ filesBelow tree root ignoreDirs ↔
      tree.hasFile (root.below components) = true ∧ isScanned ignoreDirs components = true := by
  constructor
  · intro h
    have hscanned := isScanned_of_mem_filesBelow h
    have hne := ne_nil_of_isScanned hscanned
    cases hl : tree.locate root with
    | error e =>
      rw [filesBelow, hl] at h
      cases h
    | ok l =>
      obtain ⟨content, hmem⟩ := exists_mem_of_mem_filesBelow hl h
      have hdirectory := htree.directory_of_isPrefix (htree.stands _ hmem)
        (List.prefix_append l components) (by simpa using hne)
      exact ⟨(htree.hasFile_below_iff hl hdirectory hdots).mpr ⟨content, hmem⟩, hscanned⟩
  · rintro ⟨hfile, hscanned⟩
    have hne := ne_nil_of_isScanned hscanned
    obtain ⟨l, hl, hdirectory⟩ :=
      FileTree.exists_locate_of_isDirectory (FileTree.isDirectory_of_hasFile_below hne hfile)
    obtain ⟨content, hmem⟩ := (htree.hasFile_below_iff hl hdirectory hdots).mp hfile
    rw [filesBelow_eq hl, List.mem_mergeSort, List.mem_filterMap]
    refine ⟨_, hmem, ?_⟩
    simp [scannedBelow?, hscanned]

end Symbols.StaticModel

/-! ## The two files of a module -/

/-- The file that makes a directory a package. -/
def initialFile : String := "__init__.py"

/-- Where the file of a package stands below a root. -/
def packageFile (name : String) : List String := dottedParts name ++ [initialFile]

/-- The last component of a dotted name. -/
def lastPart (name : String) : String := (dottedParts name).getLastD ""

theorem exists_dottedParts_concat (name : String) :
    ∃ before, dottedParts name = before ++ [lastPart name] := by
  obtain ⟨before, last, h⟩ := exists_dottedParts_eq name
  exact ⟨before, by rw [lastPart, h, List.getLastD_concat]⟩

/-- The files that a scan reads for a module, in the order in which it comes to them. A file
that makes a directory a package is none of a plain module. -/
def moduleFiles (name : String) : List (List String) :=
  if lastPart name = "__init__" then [packageFile name] else [sourceFile name, packageFile name]

namespace Symbols.StaticModel

variable {ignoreDirs components : List String} {name : String}

/-- The module in a file with the ending of sources. -/
theorem moduleName?_stem (before : List String) (stem : String) :
    moduleName? (before ++ [stem ++ ".py"]) =
      let parts := if stem == "__init__" then before else before ++ [stem]
      if parts.isEmpty || !(parts.all fun p => Text.isIdentifier p.toList) then none
      else some (joinDots parts, stem == "__init__") := by
  have hstem : ((stem ++ ".py").dropEnd 3).toString = stem := by
    rw [← String.toList_inj]
    simp
  rw [moduleName?]
  simp only [List.getLastD_concat, List.dropLast_concat, hstem]

theorem all_isIdentifier_dottedParts (h : IsDotted name) :
    ((dottedParts name).all fun p => Text.isIdentifier p.toList) = true := by
  rw [List.all_eq_true]
  intro part hpart
  obtain ⟨piece, hpiece, rfl⟩ := List.mem_map.mp hpart
  rw [String.toList_ofList]
  exact h piece hpiece

theorem moduleName?_packageFile (h : IsDotted name) :
    moduleName? (packageFile name) = some (name, true) := by
  have hne : (dottedParts name).isEmpty = false := by simpa using dottedParts_ne_nil name
  have hparts := moduleName?_stem (dottedParts name) "__init__"
  simp only [beq_self_eq_true, if_true, hne, all_isIdentifier_dottedParts h, joinDots_dottedParts,
    Bool.not_true, Bool.or_self, Bool.false_eq_true, if_false] at hparts
  exact hparts

theorem moduleName?_sourceFile (h : IsDotted name) (hlast : lastPart name ≠ "__init__") :
    moduleName? (sourceFile name) = some (name, false) := by
  obtain ⟨before, hbefore⟩ := exists_dottedParts_concat name
  have hall := all_isIdentifier_dottedParts h
  have hjoin := joinDots_dottedParts name
  rw [hbefore] at hall hjoin
  rw [sourceFile_concat hbefore, moduleName?_stem, beq_false_of_ne hlast]
  simp only [Bool.false_eq_true, if_false, hall, hjoin]
  simp

/-- The files of a module are those that a scan reads for it. -/
theorem mem_moduleFiles_iff (h : IsDotted name)
    (hscanned : isScanned ignoreDirs components = true) :
    components ∈ moduleFiles name ↔
      ∃ isPackage, moduleName? components = some (name, isPackage) := by
  rw [moduleFiles]
  constructor
  · intro hmem
    split at hmem
    next =>
      rw [List.mem_singleton.mp hmem]
      exact ⟨true, moduleName?_packageFile h⟩
    next hlast =>
      rcases List.mem_pair.mp hmem with rfl | rfl
      · exact ⟨false, moduleName?_sourceFile h hlast⟩
      · exact ⟨true, moduleName?_packageFile h⟩
  · rintro ⟨isPackage, hname⟩
    cases isPackage with
    | true =>
      rw [components_of_package hscanned hname]
      split <;> simp [packageFile, initialFile]
    | false =>
      obtain ⟨before, stem, hcomponents, hstem⟩ := exists_stem hscanned
      obtain ⟨hinitial, hparts⟩ := moduleName?_concat hcomponents hstem hname
      rw [if_neg Bool.false_ne_true] at hparts
      have hlast : lastPart name ≠ "__init__" := by
        rw [lastPart, hparts, List.getLastD_concat]
        exact ne_of_beq_false hinitial.symm
      rw [components_eq_sourceFile hscanned hname, if_neg hlast]
      exact List.mem_cons_self

/-! ### Which file comes first -/

theorem isHidden_of_isIdentifier {part : String} (h : Text.isIdentifier part.toList = true)
    (ending : String) : isHidden (part ++ ending) = false := by
  rw [isHidden, ← Bool.not_eq_true, String.startsWith_eq_startsWith_toSlice,
    String.Slice.startsWith_string_iff]
  intro hdot
  cases hpart : part.toList with
  | nil =>
    rw [hpart] at h
    cases h
  | cons c rest =>
    have hfirst : '.' = c := by simpa [hpart] using hdot
    rw [hpart, ← hfirst] at h
    cases h

/-- The file of a module has the ending of sources, and all above it are components of the name of
the module. -/
theorem exists_stem_of_mem_moduleFiles (h : IsDotted name) (hmem : components ∈ moduleFiles name) :
    ∃ above stem, components = above ++ [stem ++ ".py"] ∧
      (∀ part ∈ above, Text.isIdentifier part.toList = true) ∧
      Text.isIdentifier stem.toList = true := by
  have hidentifier : ∀ part ∈ dottedParts name, Text.isIdentifier part.toList = true :=
    List.all_eq_true.mp (all_isIdentifier_dottedParts h)
  have hpackage : ∃ above stem, packageFile name = above ++ [stem ++ ".py"] ∧
      (∀ part ∈ above, Text.isIdentifier part.toList = true) ∧
      Text.isIdentifier stem.toList = true :=
    ⟨dottedParts name, "__init__", rfl, hidentifier, by decide⟩
  rw [moduleFiles] at hmem
  split at hmem
  next => exact List.mem_singleton.mp hmem ▸ hpackage
  next =>
    rcases List.mem_pair.mp hmem with rfl | rfl
    · obtain ⟨before, hbefore⟩ := exists_dottedParts_concat name
      rw [hbefore, List.forall_mem_append, List.forall_mem_singleton] at hidentifier
      exact ⟨before, lastPart name, sourceFile_concat hbefore, hidentifier⟩
    · exact hpackage

theorem dots_notMem_of_mem_moduleFiles (hmem : components ∈ moduleFiles name) :
    ".." ∉ components := by
  have hpackage : ".." ∉ packageFile name := by
    rw [packageFile, List.mem_append, List.mem_singleton, not_or]
    exact ⟨dots_notMem_dottedParts name, by decide⟩
  rw [moduleFiles] at hmem
  split at hmem
  next => exact List.mem_singleton.mp hmem ▸ hpackage
  next =>
    rcases List.mem_pair.mp hmem with rfl | rfl
    · exact dots_notMem_sourceFile name
    · exact hpackage

variable {tree : FileTree} {root : Path}

/-- A scan comes to the files of modules, unless it ignores a directory. -/
theorem isScanned_of_mem_moduleFiles (htree : tree.WellFormed)
    (hignore : tree.IgnoresNothing ignoreDirs) (h : IsDotted name)
    (hmem : components ∈ moduleFiles name)
    (hfile : tree.hasFile (root.below components) = true) :
    isScanned ignoreDirs components = true := by
  have hdots := dots_notMem_of_mem_moduleFiles hmem
  obtain ⟨above, stem, rfl, habove, hstem⟩ := exists_stem_of_mem_moduleFiles h hmem
  obtain ⟨l, hl, hdirectory⟩ :=
    FileTree.exists_locate_of_isDirectory (FileTree.isDirectory_of_hasFile_below (by simp) hfile)
  obtain ⟨content, hstands⟩ := (htree.hasFile_below_iff hl hdirectory hdots).mp hfile
  have hclear : (above.all fun d => !ignoreDirs.contains d && !isHidden d) = true := by
    rw [List.all_eq_true]
    intro d hd
    obtain ⟨front, back, rfl⟩ := List.append_of_mem hd
    have hinside : tree.node? (l ++ front ++ [d]) = some .directory := by
      refine htree.directory_of_isPrefix (htree.stands _ hstands) ⟨back ++ [stem ++ ".py"], ?_⟩ ?_
      · simp
      · simp
    have hhidden : isHidden d = false := by
      simpa using isHidden_of_isIdentifier (habove d hd) ""
    have hnot := hignore _ _ hinside
    simp [hhidden, hnot]
  rw [isScanned, List.getLastD_concat, List.dropLast_concat, hclear,
    isHidden_of_isIdentifier hstem]
  have hends : (stem ++ ".py").endsWith ".py" = true := by
    rw [String.endsWith_eq_endsWith_toSlice, String.Slice.endsWith_string_iff]
    simp
  rw [hends]
  rfl

/-- The path of a plain module sorts before that of a package of its name. -/
theorem precedes_packageFile (name : String) :
    precedes (packageFile name) (sourceFile name) = false := by
  obtain ⟨before, hbefore⟩ := exists_dottedParts_concat name
  have hplain :
      "/".intercalate (sourceFile name) = "/".intercalate (dottedParts name) ++ ".py" := by
    rw [sourceFile_concat hbefore, hbefore]
    cases before with
    | nil => rfl
    | cons first rest =>
      have hne := List.cons_ne_nil first rest
      rw [intercalate_concat "/" hne, intercalate_concat "/" hne, String.append_assoc,
        String.append_assoc, String.append_assoc]
  rw [precedes, decide_eq_false_iff_not, String.not_le, hplain, packageFile,
    intercalate_concat "/" (dottedParts_ne_nil name), String.append_assoc, String.lt_iff_toList_lt,
    String.toList_append, String.toList_append]
  exact List.append_left_lt (by decide)

/-- What comes first among what is wanted comes first in a sorted list of all that is there. -/
theorem find?_of_sorted {α : Type} {le : α → α → Bool} {l wanted : List α} {p there : α → Bool}
    (hsorted : l.Pairwise fun a b => le a b = true)
    (hwanted : wanted.Pairwise fun a b => le b a = false)
    (hp : ∀ a ∈ l, p a = true ↔ a ∈ wanted) (hthere : ∀ a ∈ wanted, there a = true ↔ a ∈ l) :
    l.find? p = wanted.find? there := by
  cases hfound : wanted.find? there with
  | none =>
    rw [List.find?_eq_none] at hfound ⊢
    intro a ha hpa
    have hmem := (hp a ha).mp hpa
    exact hfound a hmem ((hthere a hmem).mpr ha)
  | some a =>
    obtain ⟨hpresent, before, after, rfl, hbefore⟩ := List.find?_eq_some_iff_append.mp hfound
    have hmem : a ∈ before ++ a :: after := by simp
    have hla := (hthere a hmem).mp hpresent
    cases hfirst : l.find? p with
    | none => exact absurd ((hp a hla).mpr hmem) (List.find?_eq_none.mp hfirst a hla)
    | some b =>
      obtain ⟨hpb, front, back, rfl, hfront⟩ := List.find?_eq_some_iff_append.mp hfirst
      have hlb : b ∈ front ++ b :: back := by simp
      -- Nothing that is wanted stands before either of them.
      have hafter : b = a ∨ b ∈ after := by
        rcases List.mem_append.mp ((hp b hlb).mp hpb) with hb | hb
        · have habsent := hbefore b hb
          rw [(hthere b (List.mem_append_left _ hb)).mpr hlb] at habsent
          cases habsent
        · exact List.mem_cons.mp hb
      have hback : a = b ∨ a ∈ back := by
        rcases List.mem_append.mp hla with ha | ha
        · have hother := hfront a ha
          rw [(hp a hla).mpr hmem] at hother
          cases hother
        · exact List.mem_cons.mp ha
      rcases hafter with rfl | hafter
      · rfl
      rcases hback with rfl | hback
      · rfl
      have hle := List.rel_of_pairwise_cons (List.pairwise_append.mp hsorted).2.1 hback
      have hnot := List.rel_of_pairwise_cons (List.pairwise_append.mp hwanted).2.1 hafter
      rw [hle] at hnot
      cases hnot

/-! ## What a scan reads -/

/-- The file that a scan reads for a module below a root. -/
def fileBelow? (tree : FileTree) (name : String) (root : Path) : Option Path :=
  ((moduleFiles name).find? fun components => tree.hasFile (root.below components)).map root.below

variable {roots : List Path}

theorem any_sourceFile?_iff : (sourceFile? root components).any (·.module == name) = true ↔
    ∃ isPackage, moduleName? components = some (name, isPackage) := by
  rw [sourceFile?]
  cases moduleName? components with
  | none => simp
  | some found =>
    obtain ⟨module, isPackage⟩ := found
    simp

/-- Below a root a scan comes to the file of a plain module before that of a package. -/
theorem find?_sourceFiles_below (htree : tree.WellFormed)
    (hignore : tree.IgnoresNothing ignoreDirs) (h : IsDotted name) (root : Path) :
    (((filesBelow tree root ignoreDirs).filterMap (sourceFile? root)).find?
      (·.module == name)).map (·.path) = fileBelow? tree name root := by
  have hsorted : (filesBelow tree root ignoreDirs).Pairwise fun a b => precedes a b = true := by
    rw [filesBelow]
    split
    · exact .nil
    · exact List.pairwise_mergeSort precedes_trans precedes_total _
  have hwanted : (moduleFiles name).Pairwise fun a b => precedes b a = false := by
    rw [moduleFiles]
    split
    · exact List.pairwise_singleton _ _
    · exact List.pairwise_pair.mpr (precedes_packageFile name)
  have hp : ∀ components ∈ filesBelow tree root ignoreDirs,
      (sourceFile? root components).any (·.module == name) = true ↔
        components ∈ moduleFiles name := by
    intro components hcomponents
    rw [any_sourceFile?_iff, mem_moduleFiles_iff h (isScanned_of_mem_filesBelow hcomponents)]
  have hthere : ∀ components ∈ moduleFiles name,
      tree.hasFile (root.below components) = true ↔
        components ∈ filesBelow tree root ignoreDirs := by
    intro components hmem
    rw [mem_filesBelow_iff htree (dots_notMem_of_mem_moduleFiles hmem)]
    exact ⟨fun hfile => ⟨hfile, isScanned_of_mem_moduleFiles htree hignore h hmem hfile⟩, (·.1)⟩
  rw [List.find?_filterMap, find?_of_sorted hsorted hwanted hp hthere, fileBelow?]
  cases hfound : (moduleFiles name).find? fun components =>
      tree.hasFile (root.below components) with
  | none => rfl
  | some components =>
    have hmem := List.mem_of_find?_eq_some hfound
    have hbelow := (hthere components hmem).mp (List.find?_eq_some_iff_append.mp hfound).1
    obtain ⟨f, hf, -⟩ := (Option.any_eq_true _ _).mp ((hp components hbelow).mpr hmem)
    rw [Option.bind_some, hf, Option.map_some, Option.map_some, path_of_sourceFile? hf]
    rfl

/-- Over all roots, it comes first to the first root that has a file of the module. -/
theorem find?_sourceFiles (htree : tree.WellFormed) (hignore : tree.IgnoresNothing ignoreDirs)
    (h : IsDotted name) (roots : List Path) :
    ((sourceFiles tree ignoreDirs roots).find? (·.module == name)).map (·.path) =
      roots.findSome? (fileBelow? tree name) := by
  rw [sourceFiles, List.find?_flatMap, List.map_findSome?]
  refine congrArg (fun f => roots.findSome? f) (funext fun root => ?_)
  exact find?_sourceFiles_below htree hignore h root

end Symbols.StaticModel

namespace Symbols

open Syntax

namespace Scope

variable {read : SourceFile → Except String (List Stmt)} {scope : Scope} {name : String}

/-- The module that a file is read as, if it is read as statements. -/
def moduleIn? (read : SourceFile → Except String (List Stmt)) (f : SourceFile) :
    Option SourceModule :=
  (read f).toOption.map (.ofStatements f.module f.path f.isPackage)

theorem lookup_readFile (f : SourceFile) : (scope.readFile read f).modules.lookup name =
    (scope.modules.lookup name).or (if f.module == name then moduleIn? read f else none) := by
  rw [readFile, Table.has]
  cases hlookup : scope.modules.lookup f.module with
  | some m =>
    rw [Option.isSome_some, if_pos rfl]
    by_cases hname : f.module = name
    · rw [← hname, hlookup, Option.some_or]
    · rw [beq_false_of_ne hname, if_neg Bool.false_ne_true, Option.or_none]
  | none =>
    rw [Option.isSome_none, if_neg Bool.false_ne_true, moduleIn?]
    cases read f with
    | error reason => simp [Except.toOption]
    | ok statements =>
      simp only [add, List.lookup_append, SourceModule.ofStatements, Except.toOption,
        Option.map_some]
      by_cases hname : f.module = name
      · simp [hname]
      · simp [List.lookup_cons, hname, beq_false_of_ne (Ne.symm hname)]

/-- The module of a name is that of the first file for it that is read as statements. -/
theorem lookup_readFiles (files : List SourceFile) :
    (scope.readFiles read files).modules.lookup name = (scope.modules.lookup name).or
      (files.findSome? fun f => if f.module == name then moduleIn? read f else none) := by
  rw [readFiles]
  induction files generalizing scope with
  | nil => simp
  | cons f rest ih =>
    rw [List.foldl_cons, ih, lookup_readFile, Option.or_assoc, List.findSome?_cons]
    cases if f.module == name then moduleIn? read f else none <;> rfl

end Scope

namespace StaticModel

variable {model : StaticModel} {tree : FileTree} {encoding : Text.Encoding} {root : Path}
  {ignoreDirs : List String} {name : String}

/-- Nothing is read below what is no directory. -/
theorem filesBelow_of_not_directory (htree : tree.WellFormed)
    (h : tree.isDirectory root = .ok false) : filesBelow tree root ignoreDirs = [] := by
  rw [List.eq_nil_iff_forall_not_mem]
  intro components hmem
  cases hl : tree.locate root with
  | error e =>
    rw [filesBelow, hl] at hmem
    cases hmem
  | ok l =>
    obtain ⟨content, hstands⟩ := exists_mem_of_mem_filesBelow hl hmem
    have hne := ne_nil_of_isScanned (isScanned_of_mem_filesBelow hmem)
    have hdirectory := htree.directory_of_isPrefix (htree.stands _ hstands)
      (List.prefix_append l components) (by simpa using hne)
    rw [FileTree.isDirectory_of_locate hl hdirectory] at h
    cases h

/-- Where all files are read as statements, those that a scan reads are. -/
theorem reading_of_nodes (htree : tree.WellFormed) {roots : List Path}
    (hroots : ∀ root ∈ roots, ∃ there, tree.isDirectory root = .ok there)
    (hparse : ∀ l content, (l, .file content) ∈ tree.nodes →
      ∃ statements, SourceFile.parse encoding content = .ok statements) :
    ∀ f ∈ sourceFiles tree ignoreDirs roots,
      ∃ statements, f.reading tree encoding = .ok statements := by
  intro f hf
  obtain ⟨root, hroot, hf⟩ := List.mem_flatMap.mp hf
  obtain ⟨components, hcomponents, hfile⟩ := List.mem_filterMap.mp hf
  obtain ⟨there, hthere⟩ := hroots root hroot
  cases there with
  | false =>
    rw [filesBelow_of_not_directory htree hthere] at hcomponents
    cases hcomponents
  | true =>
    obtain ⟨l, hl, hdirectory⟩ := FileTree.exists_locate_of_isDirectory hthere
    obtain ⟨content, hmem⟩ := exists_mem_of_mem_filesBelow hl hcomponents
    have hread := (htree.read_below hl hdirectory hmem).2
    rw [← path_of_sourceFile? hfile] at hread
    rw [SourceFile.reading_of_read hread]
    exact hparse _ _ hmem

/-- A scan passes over roots that are not there. -/
theorem loadRoots_eq_withFiles (htree : tree.WellFormed)
    (hencoding : Text.Encoding.ofName? model.encoding = some encoding) {roots : List Path}
    (hroots : ∀ root ∈ roots, ∃ there, tree.isDirectory root = .ok there) (reports : Reports) :
    ∃ reports', loadRoots tree roots model reports =
      (model.withFiles tree encoding (sourceFiles tree model.ignoreDirs roots), reports',
        .ok ()) := by
  induction roots generalizing model reports with
  | nil => exact ⟨reports, rfl⟩
  | cons root rest ih =>
    obtain ⟨⟨there, hroot⟩, hrest⟩ := List.forall_mem_cons.mp hroots
    simp only [loadRoots, hroot, sourceFiles, List.flatMap_cons]
    cases there with
    | false =>
      rw [filesBelow_of_not_directory htree hroot]
      exact ih hencoding hrest _
    | true =>
      simp only [loadAll_eq hencoding, withFiles_append]
      refine ih ?_ hrest _
      rw [encoding_withFiles, hencoding]

/-- Sources that a model can read from the first file to the last: its roots can be looked at, it
ignores no directory, and its files are read as statements. -/
structure ReadsAll (model : StaticModel) (tree : FileTree) (encoding : Text.Encoding) : Prop where
  unread : model.scope = {}
  unscanned : model.elements = none
  known : Text.Encoding.ofName? model.encoding = some encoding
  wellFormed : tree.WellFormed
  roots : ∀ root ∈ model.roots, ∃ there, tree.isDirectory root = .ok there
  ignores : tree.IgnoresNothing model.ignoreDirs
  reads : ∀ f ∈ sourceFiles tree model.ignoreDirs model.roots,
    ∃ statements, f.reading tree encoding = .ok statements

/-- **The file that a scan reads for a module**: the first one that stands below a root, in the
order of the roots. -/
theorem lookup_scan (h : model.ReadsAll tree encoding) (hname : IsDotted name)
    (reports : Reports) :
    ∃ scanned reports', model.scan tree reports = (scanned, reports', .ok ()) ∧
      match model.roots.findSome? (fileBelow? tree name) with
      | none => scanned.scope.modules.lookup name = none
      | some file => ∃ isPackage statements,
          SourceFile.reading tree encoding ⟨file, name, isPackage⟩ = .ok statements ∧
          scanned.scope.modules.lookup name =
            some (.ofStatements name file isPackage statements) := by
  obtain ⟨reports', hload⟩ := loadRoots_eq_withFiles h.wellFormed h.known h.roots reports
  have hscan : ∃ scanned, model.scan tree reports = (scanned, reports', .ok ()) ∧
      scanned.scope = (model.withFiles tree encoding
        (sourceFiles tree model.ignoreDirs model.roots)).scope := by
    rw [scan, h.unscanned, Option.isSome_none, if_neg Bool.false_ne_true, hload]
    exact ⟨_, rfl, rfl⟩
  obtain ⟨scanned, hscan, hscope⟩ := hscan
  refine ⟨scanned, reports', hscan, ?_⟩
  have hlookup : scanned.scope.modules.lookup name =
      (sourceFiles tree model.ignoreDirs model.roots).findSome? fun f =>
        if f.module == name then Scope.moduleIn? (·.reading tree encoding) f else none := by
    rw [hscope, withFiles, h.unread, Scope.lookup_readFiles]
    rfl
  rw [hlookup, ← find?_sourceFiles h.wellFormed h.ignores hname]
  cases hfind : (sourceFiles tree model.ignoreDirs model.roots).find? (·.module == name) with
  | none =>
    rw [List.find?_eq_none] at hfind
    exact List.findSome?_eq_none_iff.mpr fun f hf => if_neg (hfind f hf)
  | some f =>
    obtain ⟨hmodule, before, after, hsplit, hbefore⟩ := List.find?_eq_some_iff_append.mp hfind
    obtain rfl := eq_of_beq hmodule
    obtain ⟨statements, hread⟩ := h.reads f (List.mem_of_find?_eq_some hfind)
    refine ⟨f.isPackage, statements, hread, List.findSome?_eq_some_iff.mpr ?_⟩
    refine ⟨before, f, after, hsplit, ?_, fun other hother => if_neg ?_⟩
    · rw [beq_self_eq_true, if_pos rfl, Scope.moduleIn?, hread]
      rfl
    · simpa using hbefore other hother

end StaticModel

end Symbols

end ProviderRegistry
