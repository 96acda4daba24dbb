import ProviderRegistry.Proofs.ModuleFiles

/-!
# Modules that stand in several files

An import takes a module from one of the files that its search path has for it, component by
component: in each directory a package comes before a plain module, the directory that has one
of them wins over all later ones, and directories that are no packages are taken together if no
directory has either (`FileTree.importedFile?`). The file of an import stands below a root, and
a scan reads the module (`StaticModel.lookup_scan_iff_imported`). It reads it from that file
unless the file is shadowed: a plain module stands beside the package, or an earlier root has a
file of the module, which the import passes over because the file is in no package there.
-/

namespace ProviderRegistry

/-! ## What an import finds -/

/-- What an import finds for a name. -/
inductive Found where
  /-- A package, which is a directory. -/
  | package (directory : Path)
  /-- A plain module, which is a file. -/
  | plain (file : Path)
  /-- Neither, but directories of the name. -/
  | portions (directories : List Path)
  deriving DecidableEq

namespace Found

/-- The file of what is found. -/
def file? : Found → Option Path
  | package directory => some (directory.below [initialFile])
  | plain file => some file
  | portions _ => none

/-- Where the modules inside of what is found are looked for. -/
def searchPath : Found → List Path
  | package directory => [directory]
  | plain _ => []
  | portions directories => directories

end Found

theorem Path.below_below (base : Path) (components more : List String) :
    (base.below components).below more = base.below (components ++ more) := by
  rw [below, below, below, List.append_assoc]

theorem Path.below_nil (base : Path) : base.below [] = base := by
  rw [below, List.append_nil]

namespace FileTree

variable (tree : FileTree)

/-- What an import finds for a name in one directory. -/
def lookIn (name : String) (directory : Path) : Found :=
  if tree.hasFile (directory.below [name, initialFile]) then .package (directory.below [name])
  else if tree.hasFile (directory.below [name ++ ".py"]) then
    .plain (directory.below [name ++ ".py"])
  else if tree.hasDirectory (directory.below [name]) then .portions [directory.below [name]]
  else .portions []

/-- What an import finds for a name on a search path. -/
def lookAlong (name : String) : List Path → Found
  | [] => .portions []
  | directory :: rest =>
    match tree.lookIn name directory with
    | .portions here =>
      match lookAlong name rest with
      | .portions others => .portions (here ++ others)
      | found => found
    | found => found

/-- The file that an import takes for the module with the given components, if it takes one. -/
def importedFile? : (searchPath : List Path) → List String → Option Path
  | _, [] => none
  | searchPath, [name] => (tree.lookAlong name searchPath).file?
  | searchPath, name :: next :: rest =>
    importedFile? (tree.lookAlong name searchPath).searchPath (next :: rest)

variable {tree} {roots directories : List Path} {before parts : List String} {name : String}
  {file : Path}

/-- Directories of the same components below roots. -/
def AllBelow (roots : List Path) (before : List String) (directories : List Path) : Prop :=
  ∀ directory ∈ directories, ∃ root ∈ roots, directory = root.below before

/-- What is found is found below one of the roots. -/
def FoundBelow (tree : FileTree) (roots : List Path) (before : List String) (name : String) :
    Found → Prop
  | .package directory => ∃ root ∈ roots, directory = root.below (before ++ [name]) ∧
      tree.hasFile (directory.below [initialFile]) = true
  | .plain file => ∃ root ∈ roots, file = root.below (before ++ [name ++ ".py"]) ∧
      tree.hasFile file = true ∧
      tree.hasFile (root.below (before ++ [name, initialFile])) = false
  | .portions directories => AllBelow roots (before ++ [name]) directories

theorem foundBelow_lookIn {root : Path} (hroot : root ∈ roots) (before : List String)
    (name : String) :
    FoundBelow tree roots before name (tree.lookIn name (root.below before)) := by
  rw [lookIn, Path.below_below, Path.below_below, Path.below_below]
  split
  next hpackage =>
    refine ⟨root, hroot, rfl, ?_⟩
    rw [Path.below_below, List.append_assoc]
    exact hpackage
  next hpackage =>
    split
    next hplain => exact ⟨root, hroot, rfl, hplain, Bool.eq_false_iff.mpr hpackage⟩
    next =>
      split
      next => exact List.forall_mem_singleton.mpr ⟨root, hroot, rfl⟩
      next => exact List.forall_mem_nil _

theorem foundBelow_lookAlong (hall : AllBelow roots before directories) (name : String) :
    FoundBelow tree roots before name (tree.lookAlong name directories) := by
  induction directories with
  | nil => exact List.forall_mem_nil _
  | cons directory rest ih =>
    obtain ⟨⟨root, hroot, rfl⟩, hrest⟩ := List.forall_mem_cons.mp hall
    have hhere : FoundBelow tree roots before name (tree.lookIn name (root.below before)) :=
      foundBelow_lookIn hroot before name
    have hothers := ih hrest
    rw [lookAlong]
    cases hin : tree.lookIn name (root.below before) with
    | portions here =>
      rw [hin] at hhere
      cases halong : tree.lookAlong name rest with
      | portions others =>
        rw [halong] at hothers
        exact List.forall_mem_append.mpr ⟨hhere, hothers⟩
      | _ =>
        rw [halong] at hothers
        exact hothers
    | _ =>
      rw [hin] at hhere
      exact hhere

/-- The directories that a find goes on in stand below roots. -/
theorem FoundBelow.allBelow_searchPath {found : Found}
    (h : FoundBelow tree roots before name found) :
    AllBelow roots (before ++ [name]) found.searchPath := by
  cases found with
  | package directory =>
    obtain ⟨root, hroot, hdirectory, -⟩ := h
    exact List.forall_mem_singleton.mpr ⟨root, hroot, hdirectory⟩
  | plain file => exact List.forall_mem_nil _
  | portions directories => exact h

/-- The file of a find stands below a root, and a plain module beside no package. -/
theorem FoundBelow.of_file? {found : Found} (h : FoundBelow tree roots before name found)
    (hfile : found.file? = some file) :
    ∃ root ∈ roots, tree.hasFile file = true ∧
      (file = root.below (before ++ [name, initialFile]) ∨
        file = root.below (before ++ [name ++ ".py"]) ∧
          tree.hasFile (root.below (before ++ [name, initialFile])) = false) := by
  cases found with
  | package directory =>
    obtain ⟨root, hroot, rfl, hstands⟩ := h
    obtain rfl := Option.some.inj hfile
    refine ⟨root, hroot, hstands, .inl ?_⟩
    rw [Path.below_below, List.append_assoc, List.singleton_append]
  | plain file' =>
    obtain ⟨root, hroot, rfl, hstands, hnone⟩ := h
    obtain rfl := Option.some.inj hfile
    exact ⟨root, hroot, hstands, .inr ⟨rfl, hnone⟩⟩
  | portions directories => cases hfile

/-- **The file of an import** stands below a root, and if it is that of a plain module, no package
stands beside it. -/
theorem of_importedFile? (hall : AllBelow roots before directories)
    (h : tree.importedFile? directories parts = some file) :
    ∃ root ∈ roots, ∃ above last, parts = above ++ [last] ∧ tree.hasFile file = true ∧
      (file = root.below (before ++ parts ++ [initialFile]) ∨
        file = root.below (before ++ above ++ [last ++ ".py"]) ∧
          tree.hasFile (root.below (before ++ parts ++ [initialFile])) = false) := by
  induction parts generalizing directories before with
  | nil => cases h
  | cons name rest ih =>
    have hfound : FoundBelow tree roots before name (tree.lookAlong name directories) :=
      foundBelow_lookAlong hall name
    cases rest with
    | nil =>
      obtain ⟨root, hroot, hfile, hwhich⟩ := hfound.of_file? h
      refine ⟨root, hroot, [], name, rfl, hfile, ?_⟩
      simpa only [List.append_assoc, List.append_nil, List.singleton_append] using hwhich
    | cons next rest =>
      -- What is found for the first component is where the others are looked for.
      obtain ⟨root, hroot, above, last, hparts, hfile, hwhich⟩ := ih hfound.allBelow_searchPath h
      refine ⟨root, hroot, name :: above, last, by rw [hparts]; rfl, hfile, ?_⟩
      simpa only [List.append_assoc, List.singleton_append] using hwhich

/-- The file of an import of a module by its name. -/
theorem of_importedFile?_dottedParts (h : tree.importedFile? roots (dottedParts name) = some file) :
    ∃ root ∈ roots, tree.hasFile file = true ∧
      (file = root.below (packageFile name) ∨
        file = root.below (sourceFile name) ∧
          tree.hasFile (root.below (packageFile name)) = false) := by
  have hall : AllBelow roots [] roots := fun root hroot => ⟨root, hroot, root.below_nil.symm⟩
  obtain ⟨root, hroot, above, last, hparts, hfile, hwhich⟩ := of_importedFile? hall h
  rw [List.nil_append, List.nil_append, ← packageFile, ← sourceFile_concat hparts] at hwhich
  exact ⟨root, hroot, hfile, hwhich⟩

/-! ### Packages only -/

theorem lookAlong_ne_portions {directory : Path} (hmem : directory ∈ directories)
    (hfound : ∀ here, tree.lookIn name directory ≠ .portions here) (found : List Path) :
    tree.lookAlong name directories ≠ .portions found := by
  induction directories generalizing found with
  | nil => cases hmem
  | cons first rest ih =>
    rw [lookAlong]
    cases hin : tree.lookIn name first with
    | portions here =>
      have hrest : directory ∈ rest :=
        (List.mem_cons.mp hmem).resolve_left fun heq => hfound here (heq ▸ hin)
      cases halong : tree.lookAlong name rest with
      | portions others => exact absurd halong (ih hrest others)
      | _ => rintro ⟨⟩
    | _ => rintro ⟨⟩

/-- What is found on the first part of a search path is found on all of it. -/
theorem lookAlong_append (hfound : ∀ found, tree.lookAlong name directories ≠ .portions found)
    (more : List Path) :
    tree.lookAlong name (directories ++ more) = tree.lookAlong name directories := by
  induction directories with
  | nil => exact absurd rfl (hfound [])
  | cons first rest ih =>
    rw [List.cons_append, lookAlong, lookAlong]
    cases hin : tree.lookIn name first with
    | portions here =>
      have hrest : ∀ found, tree.lookAlong name rest ≠ .portions found := by
        intro found halong
        exact hfound (here ++ found) (by rw [lookAlong, hin, halong])
      rw [ih hrest]
    | _ => rfl

/-- The file of an import is found on the first part of a search path, if the first component of
the module is. -/
theorem importedFile?_append (hfound : ∀ found, tree.lookAlong name directories ≠ .portions found)
    (more : List Path) (rest : List String) :
    tree.importedFile? (directories ++ more) (name :: rest) =
      tree.importedFile? directories (name :: rest) := by
  cases rest with
  | nil => rw [importedFile?, importedFile?, lookAlong_append hfound]
  | cons next rest => rw [importedFile?, importedFile?, lookAlong_append hfound]

end FileTree

namespace Symbols.StaticModel

variable {model : StaticModel} {tree : FileTree} {encoding : Text.Encoding} {root root' : Path}
  {roots : List Path} {name : String} {file : Path} {components components' : List String}

/-! ## What a scan reads instead -/

theorem moduleFiles_eq (hlast : lastPart name ≠ "__init__") :
    moduleFiles name = [sourceFile name, packageFile name] :=
  if_neg hlast

theorem sourceFile_ne_packageFile (hlast : lastPart name ≠ "__init__") (base base' : List String) :
    base ++ sourceFile name ≠ base' ++ packageFile name := by
  obtain ⟨before, hbefore⟩ := exists_dottedParts_concat name
  intro heq
  have hinitial : initialFile = "__init__" ++ ".py" := rfl
  rw [sourceFile_concat hbefore, packageFile, ← List.append_assoc, ← List.append_assoc,
    List.append_singleton_inj, hinitial, String.append_left_inj] at heq
  exact hlast heq.2

/-- A file belongs to one root, and is either that of a plain module or that of a package. -/
theorem below_moduleFiles_inj (hlast : lastPart name ≠ "__init__")
    (h : components ∈ moduleFiles name) (h' : components' ∈ moduleFiles name)
    (heq : root.below components = root'.below components') :
    root = root' ∧ components = components' := by
  obtain ⟨kind, parts⟩ := root
  obtain ⟨kind', parts'⟩ := root'
  obtain ⟨rfl, hparts⟩ := Path.mk.inj heq
  have hsame : components = components' := by
    rw [moduleFiles_eq hlast] at h h'
    rcases List.mem_pair.mp h with rfl | rfl <;> rcases List.mem_pair.mp h' with rfl | rfl
    · rfl
    · exact absurd hparts (sourceFile_ne_packageFile hlast _ _)
    · exact absurd hparts.symm (sourceFile_ne_packageFile hlast _ _)
    · rfl
  subst hsame
  exact ⟨congrArg _ (List.append_cancel_right hparts), rfl⟩

theorem exists_mem_moduleFiles (hlast : lastPart name ≠ "__init__")
    (h : file = root.below (packageFile name) ∨ file = root.below (sourceFile name)) :
    ∃ components ∈ moduleFiles name, root.below components = file := by
  rw [moduleFiles_eq hlast]
  rcases h with rfl | rfl
  · exact ⟨_, List.mem_cons_of_mem _ (List.mem_singleton.mpr rfl), rfl⟩
  · exact ⟨_, List.mem_cons_self, rfl⟩

/-- A root has the file that comes first in it. -/
theorem fileBelow?_eq_some_iff (hlast : lastPart name ≠ "__init__") :
    fileBelow? tree name root = some file ↔ tree.hasFile file = true ∧
      (file = root.below (sourceFile name) ∨
        file = root.below (packageFile name) ∧
          tree.hasFile (root.below (sourceFile name)) = false) := by
  rw [fileBelow?, moduleFiles_eq hlast, List.find?_cons, List.find?_cons, List.find?_nil]
  cases hplain : tree.hasFile (root.below (sourceFile name)) with
  | true =>
    simp only [Option.map_some, Option.some.injEq, Bool.true_eq_false, and_false, or_false]
    refine ⟨fun heq => ⟨heq ▸ hplain, heq.symm⟩, fun h => h.2.symm⟩
  | false =>
    cases hpackage : tree.hasFile (root.below (packageFile name)) with
    | true =>
      simp only [Option.map_some, Option.some.injEq, and_true]
      refine ⟨fun heq => ⟨heq ▸ hpackage, .inr heq.symm⟩, ?_⟩
      rintro ⟨hfile, rfl | rfl⟩
      · rw [hplain] at hfile
        cases hfile
      · rfl
    | false =>
      simp only [Option.map_none, reduceCtorEq, false_iff]
      rintro ⟨hfile, rfl | ⟨rfl, -⟩⟩
      · rw [hplain] at hfile
        cases hfile
      · rw [hpackage] at hfile
        cases hfile

theorem fileBelow?_ne_none (hfile : tree.hasFile (root.below components) = true)
    (hmem : components ∈ moduleFiles name) : fileBelow? tree name root ≠ none := by
  rw [fileBelow?, Ne, Option.map_eq_none_iff, List.find?_eq_none]
  exact fun hnone => hnone _ hmem hfile

theorem exists_of_fileBelow?_eq_some (h : fileBelow? tree name root = some file) :
    ∃ components ∈ moduleFiles name, tree.hasFile (root.below components) = true ∧
      root.below components = file := by
  obtain ⟨components, hcomponents, hfile⟩ := Option.map_eq_some_iff.mp h
  exact ⟨components, List.mem_of_find?_eq_some hcomponents,
    (List.find?_eq_some_iff_append.mp hcomponents).1, hfile⟩

/-- A file of the root is the first on all roots just if it comes first in the root, and no root
before has a file. -/
theorem findSome?_fileBelow?_iff (hlast : lastPart name ≠ "__init__") (hroot : root ∈ roots)
    (hfile : tree.hasFile (root.below components) = true)
    (hmem : components ∈ moduleFiles name) :
    roots.findSome? (fileBelow? tree name) = some (root.below components) ↔
      (∀ earlier ∈ roots.takeWhile (· != root), fileBelow? tree name earlier = none) ∧
        fileBelow? tree name root = some (root.below components) := by
  obtain ⟨before, after, rfl, hnotMem⟩ := List.eq_append_cons_of_mem hroot
  have hbefore : (before ++ root :: after).takeWhile (· != root) = before := by
    rw [List.takeWhile_append_of_pos, List.takeWhile_cons_of_neg (by simp), List.append_nil]
    intro earlier hearlier
    rw [bne_iff_ne]
    rintro rfl
    exact hnotMem hearlier
  rw [hbefore, List.findSome?_append, List.findSome?_cons]
  cases hfirst : before.findSome? (fileBelow? tree name) with
  | none =>
    rw [Option.none_or, and_iff_right (List.findSome?_eq_none_iff.mp hfirst)]
    cases hroot : fileBelow? tree name root with
    | none => exact absurd hroot (fileBelow?_ne_none hfile hmem)
    | some file' => rfl
  | some other =>
    obtain ⟨front, earlier, back, rfl, hearlier, -⟩ := List.findSome?_eq_some_iff.mp hfirst
    have hin : earlier ∈ front ++ earlier :: back := by simp
    refine iff_of_false ?_ fun h => ?_
    · -- A file of an earlier root is not below this one.
      rw [Option.some_or, Option.some.injEq]
      rintro rfl
      obtain ⟨components', hmem', -, heq⟩ := exists_of_fileBelow?_eq_some hearlier
      exact hnotMem ((below_moduleFiles_inj hlast hmem' hmem heq).1 ▸ hin)
    · rw [h.1 earlier hin] at hearlier
      cases hearlier

/-- **When the file of an import comes first**: no earlier root has a file of the module, and no
plain module stands beside the file if that is the one of a package. -/
theorem exists_findSome?_of_imported (hlast : lastPart name ≠ "__init__")
    (himport : tree.importedFile? roots (dottedParts name) = some file) :
    ∃ path, roots.findSome? (fileBelow? tree name) = some path ∧ ∃ root ∈ roots,
      (file = root.below (packageFile name) ∨ file = root.below (sourceFile name)) ∧
      (path = file ↔
        (∀ earlier ∈ roots.takeWhile (· != root), fileBelow? tree name earlier = none) ∧
        (file = root.below (packageFile name) →
          tree.hasFile (root.below (sourceFile name)) = false)) := by
  obtain ⟨root, hroot, hfile, hwhich⟩ := FileTree.of_importedFile?_dottedParts himport
  obtain ⟨components, hcomponents, rfl⟩ := exists_mem_moduleFiles hlast (hwhich.imp_right (·.1))
  have hsome : roots.findSome? (fileBelow? tree name) ≠ none := by
    intro hnone
    exact fileBelow?_ne_none hfile hcomponents (List.findSome?_eq_none_iff.mp hnone root hroot)
  obtain ⟨path, hpath⟩ := Option.ne_none_iff_exists'.mp hsome
  refine ⟨path, hpath, root, hroot, hwhich.imp_right (·.1), ?_⟩
  have hfirst := findSome?_fileBelow?_iff hlast hroot hfile hcomponents
  rw [hpath, Option.some.injEq, fileBelow?_eq_some_iff hlast, and_iff_right hfile] at hfirst
  rw [hfirst]
  refine and_congr_right fun _ => ⟨?_, fun hbeside => ?_⟩
  · rintro (hplain | ⟨-, hbeside⟩) hpackage
    · exact absurd (congrArg Path.parts (hplain.symm.trans hpackage))
        (sourceFile_ne_packageFile hlast _ _)
    · exact hbeside
  · rcases hwhich with hpackage | ⟨hplain, -⟩
    · exact .inr ⟨hpackage, hbeside hpackage⟩
    · exact .inl hplain

/-- **When a scan reads what an import takes.** A module for which an import takes a file is read by
a scan. It is read from that file just if no earlier root has a file of the module, and no plain
module stands beside the file if that is the one of a package. -/
theorem lookup_scan_iff_imported (h : model.ReadsAll tree encoding) (hname : IsDotted name)
    (hlast : lastPart name ≠ "__init__")
    (himport : tree.importedFile? model.roots (dottedParts name) = some file)
    (reports : Reports) :
    ∃ scanned reports' isPackage statements, ∃ path : Path, ∃ root ∈ model.roots,
      model.scan tree reports = (scanned, reports', .ok ()) ∧
      scanned.scope.modules.lookup name =
        some (.ofStatements name path isPackage statements) ∧
      SourceFile.reading tree encoding ⟨path, name, isPackage⟩ = .ok statements ∧
      (file = root.below (packageFile name) ∨ file = root.below (sourceFile name)) ∧
      (path = file ↔
        (∀ earlier ∈ model.roots.takeWhile (· != root), fileBelow? tree name earlier = none) ∧
        (file = root.below (packageFile name) →
          tree.hasFile (root.below (sourceFile name)) = false)) := by
  obtain ⟨path, hpath, root, hroot, hwhich, hfirst⟩ := exists_findSome?_of_imported hlast himport
  obtain ⟨scanned, reports', hscan, hread⟩ := lookup_scan h hname reports
  simp only [hpath] at hread
  obtain ⟨isPackage, statements, hreading, hlookup⟩ := hread
  exact ⟨scanned, reports', isPackage, statements, path, root, hroot, hscan, hlookup, hreading,
    hwhich, hfirst⟩

/-! ### Packages only -/

/-- Where directories are packages, an import comes no further than a root that has a file of the
module. -/
theorem lookIn_ne_portions {first : String} {rest : List String}
    (hparts : dottedParts name = first :: rest)
    (hpackage : tree.hasDirectory (root.below [first]) = true →
      tree.hasFile (root.below [first, initialFile]) = true)
    (hlast : lastPart name ≠ "__init__") (hmem : components ∈ moduleFiles name)
    (hfile : tree.hasFile (root.below components) = true) (here : List Path) :
    tree.lookIn first root ≠ .portions here := by
  have hfound : tree.hasFile (root.below [first, initialFile]) = true ∨
      tree.hasFile (root.below [first ++ ".py"]) = true := by
    -- A file with more than one component stands below a directory.
    have hinside (more : List String) (hne : more ≠ []) (hbelow : components = first :: more) :
        tree.hasFile (root.below [first, initialFile]) = true := by
      refine hpackage (FileTree.hasDirectory_iff.mpr
        (FileTree.isDirectory_of_hasFile_below hne ?_))
      rw [Path.below_below, List.singleton_append, ← hbelow]
      exact hfile
    have hplain : sourceFile name =
        (first :: rest).dropLast ++ [(first :: rest).getLastD "" ++ ".py"] := by
      rw [sourceFile, hparts]
    rw [moduleFiles_eq hlast, hplain, packageFile, hparts] at hmem
    rcases List.mem_pair.mp hmem with hmem | hmem
    · cases rest with
      | nil =>
        rw [hmem] at hfile
        exact .inr hfile
      | cons next rest => exact .inl (hinside _ (by simp) hmem)
    · exact .inl (hinside _ (by simp) hmem)
  rw [FileTree.lookIn]
  split
  next => rintro ⟨⟩
  next hpackage =>
    split
    next => rintro ⟨⟩
    next hplain => exact absurd hfound (not_or.mpr ⟨hpackage, hplain⟩)

/-- **A scan reads what an import takes** where the directories of the roots are packages, and no
module stands beside a package of its name. -/
theorem lookup_scan_of_packages (h : model.ReadsAll tree encoding) (hname : IsDotted name)
    (hlast : lastPart name ≠ "__init__")
    (hpackages : ∀ root ∈ model.roots, ∀ first,
      tree.hasDirectory (root.below [first]) = true →
        tree.hasFile (root.below [first, initialFile]) = true)
    (hapart : ∀ root ∈ model.roots, tree.hasFile (root.below (packageFile name)) = true →
      tree.hasFile (root.below (sourceFile name)) = false)
    (himport : tree.importedFile? model.roots (dottedParts name) = some file)
    (reports : Reports) :
    ∃ scanned reports' isPackage statements,
      model.scan tree reports = (scanned, reports', .ok ()) ∧
      scanned.scope.modules.lookup name = some (.ofStatements name file isPackage statements) := by
  obtain ⟨path, hpath, root, hroot, hwhich, hfirst⟩ := exists_findSome?_of_imported hlast himport
  obtain ⟨scanned, reports', hscan, hread⟩ := lookup_scan h hname reports
  obtain ⟨first, rest, hparts⟩ := List.exists_cons_of_ne_nil (dottedParts_ne_nil name)
  simp only [hpath] at hread
  obtain ⟨isPackage, statements, -, hlookup⟩ := hread
  obtain rfl : path = file := by
    refine hfirst.mpr ⟨fun earlier hearlier => ?_, fun hpackage => hapart root hroot ?_⟩
    · by_contra hne
      obtain ⟨other, hother⟩ := Option.ne_none_iff_exists'.mp hne
      obtain ⟨components, hmem, hfile, -⟩ := exists_of_fileBelow?_eq_some hother
      -- Then the import finds a file below one of the earlier roots, and this is none of them.
      have hpackage := hpackages earlier ((List.takeWhile_prefix _).subset hearlier) first
      have hfound := FileTree.lookAlong_ne_portions hearlier
        (lookIn_ne_portions hparts hpackage hlast hmem hfile)
      rw [← List.takeWhile_append_dropWhile (p := (· != root)) (l := model.roots), hparts,
        FileTree.importedFile?_append hfound, ← hparts] at himport
      obtain ⟨root', hroot', -, hwhich'⟩ := FileTree.of_importedFile?_dottedParts himport
      obtain ⟨_, hin, rfl⟩ := exists_mem_moduleFiles hlast hwhich
      obtain ⟨_, hin', heq⟩ := exists_mem_moduleFiles hlast (hwhich'.imp_right (·.1))
      obtain ⟨rfl, -⟩ := below_moduleFiles_inj hlast hin' hin heq
      simpa using List.mem_takeWhile_imp hroot'
    · obtain ⟨-, -, hfile, -⟩ := FileTree.of_importedFile?_dottedParts himport
      exact hpackage ▸ hfile
  exact ⟨scanned, reports', isPackage, statements, hscan, hlookup⟩

/-! ### A module beside a package -/

/-- Sources with a package `p` that has a module, and with a package `q` beside a module of that
name. All files are empty. -/
def besideTree : FileTree where
  home := []
  nodes := [(["s"], .directory), (["s", "p"], .directory), (["s", "p", "__init__.py"], .file []),
    (["s", "p", "m.py"], .file []), (["s", "q"], .directory),
    (["s", "q", "__init__.py"], .file []), (["s", "q.py"], .file [])]

def besideModel : StaticModel where
  roots := [⟨.none, ["s"]⟩]
  ignoreDirs := []
  encoding := "utf-8"

theorem besideModel_readsAll : besideModel.ReadsAll besideTree .utf8 where
  unread := rfl
  unscanned := rfl
  known := by decide
  wellFormed := by decide +kernel
  roots := List.forall_mem_singleton.mpr ⟨true, by decide +kernel⟩
  ignores := fun _ _ _ => List.not_mem_nil
  reads := by
    refine reading_of_nodes (by decide +kernel)
      (List.forall_mem_singleton.mpr ⟨true, by decide +kernel⟩) fun l content hmem => ⟨[], ?_⟩
    have hempty : ∀ entry ∈ besideTree.nodes, entry.2 = .directory ∨ entry.2 = .file [] := by
      decide
    obtain hdirectory | hfile := hempty _ hmem
    · cases hdirectory
    · obtain rfl := Node.file.inj hfile
      rfl

/-- A module of a package is read from the file that an import takes. -/
theorem lookup_scan_iff_imported_module :
    besideTree.importedFile? besideModel.roots ["p", "m"] = some ⟨.none, ["s", "p", "m.py"]⟩ ∧
      ∃ scanned reports' isPackage statements,
        besideModel.scan besideTree {} = (scanned, reports', .ok ()) ∧
        scanned.scope.modules.lookup "p.m" =
          some (.ofStatements "p.m" ⟨.none, ["s", "p", "m.py"]⟩ isPackage statements) := by
  have himport : besideTree.importedFile? besideModel.roots ["p", "m"] =
      some ⟨.none, ["s", "p", "m.py"]⟩ := by
    decide +kernel
  refine ⟨himport, ?_⟩
  have hname : IsDotted "p.m" := by decide
  obtain ⟨scanned, reports', isPackage, statements, path, root, hroot, hscan, hlookup, -, -,
      hiff⟩ :=
    lookup_scan_iff_imported besideModel_readsAll hname (by decide) himport {}
  obtain rfl := List.mem_singleton.mp hroot
  obtain rfl := hiff.mpr (by decide +kernel)
  exact ⟨scanned, reports', isPackage, statements, hscan, hlookup⟩

/-- A scan can read another file than the one that an import takes. -/
theorem module_read_beside_package :
    ¬ ∀ (model : StaticModel) (tree : FileTree) (encoding : Text.Encoding) (name : String)
      (file : Path) (reports : Reports), model.ReadsAll tree encoding → IsDotted name →
      tree.importedFile? model.roots (dottedParts name) = some file →
      ∃ m, (model.scan tree reports).1.scope.modules.lookup name = some m ∧ m.path = file := by
  intro h
  have hname : IsDotted "q" := by decide
  obtain ⟨m, hlookup, hpath⟩ := h besideModel besideTree .utf8 "q"
    ⟨.none, ["s", "q", "__init__.py"]⟩ {} besideModel_readsAll hname (by decide +kernel)
  have hfirst : besideModel.roots.findSome? (fileBelow? besideTree "q") =
      some ⟨.none, ["s", "q.py"]⟩ := by
    decide +kernel
  obtain ⟨scanned, reports', hscan, hread⟩ := lookup_scan besideModel_readsAll hname {}
  simp only [hfirst] at hread
  obtain ⟨isPackage, statements, -, hread⟩ := hread
  rw [hscan, hread] at hlookup
  obtain rfl := Option.some.inj hlookup
  have hsame : (⟨.none, ["s", "q.py"]⟩ : Path) = ⟨.none, ["s", "q", "__init__.py"]⟩ := hpath
  exact absurd hsame (by decide)

end Symbols.StaticModel

end ProviderRegistry
