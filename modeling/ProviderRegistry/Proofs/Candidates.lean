import ProviderRegistry.Proofs.ModuleFiles
import ProviderRegistry.Proofs.Rejecting

/-!
# The files that a scan tries for a module

The source files of a module stand in an order: root after root, and below a root by their
paths. A scan tries them in this order and stops at the first one that it can read as
statements; the ones before it are those that it rejects, and no other file is rejected
(`StaticModel.scan_tries_in_order`). What a source file of a module is, is said of its path
alone (`IsSourceOf`), and the order is said of where files stand (`Place.Precedes`); the list that
a scan goes through is shown to hold these files in this order.
-/

namespace ProviderRegistry

/-! ## Paths as texts -/

namespace Path

theorem componentsOf_name {name : String} (h : IsFileName name) :
    componentsOf name.toList = [name] := by
  have hparts := congrArg Path.parts (ofString_eq h)
  rwa [ofString] at hparts

/-- Names with slashes between them are taken apart again. -/
theorem componentsOf_intercalate {parts : List String} (hne : parts ≠ [])
    (h : ∀ part ∈ parts, IsFileName part) :
    componentsOf ("/".intercalate parts).toList = parts := by
  induction parts using List.reverseRecOn with
  | nil => exact absurd rfl hne
  | append_singleton init last ih =>
    rw [List.forall_mem_append, List.forall_mem_singleton] at h
    by_cases hinit : init = []
    · rw [hinit, List.nil_append, String.intercalate_singleton, componentsOf_name h.2]
    · have htext : ("/".intercalate (init ++ [last])).toList =
          ("/".intercalate init).toList ++ '/' :: last.toList := by
        rw [intercalate_concat "/" hinit, String.toList_append, String.toList_append,
          List.append_assoc]
        rfl
      rw [htext, componentsOf_append h.2, ih hinit h.1]

end Path

namespace Symbols

open Syntax

namespace StaticModel

variable {model scanned : StaticModel} {tree : FileTree} {encoding : Text.Encoding}
  {ignoreDirs components : List String} {roots : List Path} {root : Path} {name : String}

/-! ## Source files of a module -/

/-- The components that a file names a module by: the directories that lead to it, and its own
name unless it makes its directory a package. -/
def namedBy (directories : List String) (stem : String) : List String :=
  if stem = "__init__" then directories else directories ++ [stem]

/-- A relative path is that of a source file of a module: it leads through directories that are
neither ignored nor hidden to a file that is not hidden and has the ending of sources, and the
components that name the module are identifiers. -/
def IsSourceOf (ignoreDirs : List String) (name : String) (components : List String) : Prop :=
  ∃ directories stem, components = directories ++ [stem ++ ".py"] ∧
    (∀ d ∈ directories, d ∉ ignoreDirs ∧ isHidden d = false) ∧
    isHidden (stem ++ ".py") = false ∧
    namedBy directories stem ≠ [] ∧
    (∀ part ∈ namedBy directories stem, Text.isIdentifier part.toList = true) ∧
    joinDots (namedBy directories stem) = name

theorem isScanned_concat (ignoreDirs directories : List String) (stem : String) :
    isScanned ignoreDirs (directories ++ [stem ++ ".py"]) = true ↔
      (∀ d ∈ directories, d ∉ ignoreDirs ∧ isHidden d = false) ∧
        isHidden (stem ++ ".py") = false := by
  have hends : (stem ++ ".py").endsWith ".py" = true := by
    rw [String.endsWith_eq_endsWith_toSlice, String.Slice.endsWith_string_iff]
    simp
  rw [isScanned, List.getLastD_concat, List.dropLast_concat, hends]
  simp

theorem moduleName?_eq_some_iff (directories : List String) (stem : String) (isPackage : Bool) :
    moduleName? (directories ++ [stem ++ ".py"]) = some (name, isPackage) ↔
      namedBy directories stem ≠ [] ∧
        (∀ part ∈ namedBy directories stem, Text.isIdentifier part.toList = true) ∧
        joinDots (namedBy directories stem) = name ∧ (stem == "__init__") = isPackage := by
  have hparts : (if stem == "__init__" then directories else directories ++ [stem]) =
      namedBy directories stem := by
    by_cases hstem : stem = "__init__" <;> simp [namedBy, hstem]
  rw [moduleName?_stem, hparts]
  by_cases hgood : namedBy directories stem ≠ [] ∧
      ∀ part ∈ namedBy directories stem, Text.isIdentifier part.toList = true
  · have hclear : ((namedBy directories stem).isEmpty ||
        !(namedBy directories stem).all fun part => Text.isIdentifier part.toList) = false := by
      rw [Bool.or_eq_false_iff, List.isEmpty_eq_false_iff, Bool.not_eq_false', List.all_eq_true]
      exact hgood
    simp only [hclear, Bool.false_eq_true, if_false, Option.some.injEq, Prod.mk.injEq]
    exact ⟨fun h => ⟨hgood.1, hgood.2, h⟩, fun h => h.2.2⟩
  · have hbad : ((namedBy directories stem).isEmpty ||
        !(namedBy directories stem).all fun part => Text.isIdentifier part.toList) = true := by
      rw [← Bool.not_eq_false, Bool.or_eq_false_iff, List.isEmpty_eq_false_iff, Bool.not_eq_false',
        List.all_eq_true]
      exact hgood
    simp only [hbad, if_true, reduceCtorEq, false_iff]
    exact fun h => hgood ⟨h.1, h.2.1⟩

/-- The source files of a module are the files that a scan comes to and names after it. -/
theorem isSourceOf_iff : IsSourceOf ignoreDirs name components ↔
    isScanned ignoreDirs components = true ∧
      ∃ isPackage, moduleName? components = some (name, isPackage) := by
  constructor
  · rintro ⟨directories, stem, rfl, hclear, hshown, hne, hall, hjoin⟩
    refine ⟨(isScanned_concat _ _ _).mpr ⟨hclear, hshown⟩, stem == "__init__", ?_⟩
    exact (moduleName?_eq_some_iff _ _ _).mpr ⟨hne, hall, hjoin, rfl⟩
  · rintro ⟨hscanned, isPackage, hname⟩
    obtain ⟨directories, stem, rfl, -⟩ := exists_stem hscanned
    obtain ⟨hclear, hshown⟩ := (isScanned_concat _ _ _).mp hscanned
    obtain ⟨hne, hall, hjoin, -⟩ := (moduleName?_eq_some_iff _ _ _).mp hname
    exact ⟨directories, stem, rfl, hclear, hshown, hne, hall, hjoin⟩

/-- A file of a module makes its directory a package just if it has the name for that. -/
theorem isPackage_eq {isPackage : Bool} (hscanned : isScanned ignoreDirs components = true)
    (h : moduleName? components = some (name, isPackage)) :
    isPackage = ((root.below components).name == initialFile) := by
  obtain ⟨directories, stem, rfl, -⟩ := exists_stem hscanned
  obtain ⟨-, -, -, rfl⟩ := (moduleName?_eq_some_iff _ _ _).mp h
  have hinitial : initialFile = "__init__" ++ ".py" := by decide
  rw [Path.name, Path.below, ← List.append_assoc, List.getLastD_concat, hinitial]
  by_cases hstem : stem = "__init__"
  · simp [hstem]
  · rw [beq_false_of_ne hstem, beq_false_of_ne fun heq => hstem ((String.append_left_inj _).mp heq)]

/-- Its path has no double dots. -/
theorem IsSourceOf.dots_notMem (h : IsSourceOf ignoreDirs name components) :
    ".." ∉ components := by
  obtain ⟨directories, stem, rfl, hclear, -⟩ := h
  rw [List.mem_append, List.mem_singleton, not_or]
  refine ⟨fun hmem => ?_, fun heq => ?_⟩
  · have hhidden : isHidden ".." = true := by decide +kernel
    rw [(hclear _ hmem).2] at hhidden
    cases hhidden
  · have hends : ".py".toList <:+ "..".toList := by
      rw [heq, String.toList_append]
      exact List.suffix_append _ _
    exact absurd hends (by decide)

end StaticModel

/-! ## Where files stand below roots -/

/-- Where a file stands below the roots of a scan: the number of its root, and its path from
there. -/
structure Place where
  root : Nat
  components : List String

/-- A place comes before another one: its root does, or the roots are one and its path sorts
before. -/
def Place.Precedes (p q : Place) : Prop :=
  p.root < q.root ∨
    p.root = q.root ∧ "/".intercalate p.components < "/".intercalate q.components

theorem Place.Precedes.asymm {p q : Place} (h : p.Precedes q) : ¬ q.Precedes p := by
  rintro (hroot | ⟨hroot, htext⟩)
  · rcases h with h | ⟨h, -⟩ <;> omega
  · rcases h with h | ⟨-, h⟩
    · omega
    · exact String.lt_asymm h htext

/-- What an ordered list has before an item are its items that precede this one. -/
theorem exists_split_iff {α : Type} {precedes : α → α → Prop} {l : List α}
    (hordered : l.Pairwise precedes) (hasymm : ∀ a b, precedes a b → ¬ precedes b a)
    {holds : α → Prop} {a : α} :
    (∃ before after, l = before ++ a :: after ∧ ∀ b ∈ before, holds b) ↔
      a ∈ l ∧ ∀ b ∈ l, precedes b a → holds b := by
  constructor
  · rintro ⟨before, after, rfl, hbefore⟩
    refine ⟨by simp, fun b hb hba => ?_⟩
    rcases List.mem_append.mp hb with hb | hb
    · exact hbefore b hb
    · rcases List.mem_cons.mp hb with rfl | hb
      · exact absurd hba (hasymm b b hba)
      · have hab := List.rel_of_pairwise_cons (List.pairwise_append.mp hordered).2.1 hb
        exact absurd hba (hasymm a b hab)
  · rintro ⟨ha, hall⟩
    obtain ⟨before, after, rfl⟩ := List.append_of_mem ha
    refine ⟨before, after, rfl, fun b hb => hall b (List.mem_append_left _ hb) ?_⟩
    exact (List.pairwise_append.mp hordered).2.2 b hb a List.mem_cons_self

namespace Scope

variable {read : SourceFile → Except String (List Stmt)} {f : SourceFile} {name : String}

/-- A file fails for a module when it is none of its own, or cannot be read as statements. -/
theorem moduleFor?_eq_none_iff : (if f.module == name then moduleIn? read f else none) = none ↔
    (f.module = name → ∃ reason, read f = .error reason) := by
  by_cases hname : f.module = name
  · rw [if_pos (beq_iff_eq.mpr hname), moduleIn?]
    cases read f <;> simp [Except.toOption, hname]
  · simp [hname]

theorem moduleFor?_eq_some_iff {m : SourceModule} :
    (if f.module == name then moduleIn? read f else none) = some m ↔
      f.module = name ∧ ∃ statements, read f = .ok statements ∧
        m = .ofStatements f.module f.path f.isPackage statements := by
  by_cases hname : f.module = name
  · rw [if_pos (beq_iff_eq.mpr hname), moduleIn?]
    cases read f <;> simp [Except.toOption, hname, eq_comm]
  · simp [hname]

end Scope

namespace StaticModel

variable {model scanned : StaticModel} {tree : FileTree} {encoding : Text.Encoding}
  {ignoreDirs components : List String} {roots : List Path} {root : Path} {name : String}
  {p : Place} {f : SourceFile}

/-- The files that a scan reads for modules, each with the place where it stands. -/
def placedFiles (tree : FileTree) (ignoreDirs : List String) (roots : List Path) :
    List (Place × SourceFile) :=
  roots.zipIdx.flatMap fun (root, i) =>
    (filesBelow tree root ignoreDirs).filterMap fun components =>
      (sourceFile? root components).map (⟨i, components⟩, ·)

theorem map_snd_placedFiles (tree : FileTree) (ignoreDirs : List String) (roots : List Path) :
    (placedFiles tree ignoreDirs roots).map (·.2) = sourceFiles tree ignoreDirs roots := by
  have hroots : roots = roots.zipIdx.map (·.1) := (List.zipIdx_map_fst 0 roots).symm
  rw [placedFiles, List.map_flatMap, sourceFiles]
  conv_rhs => rw [hroots, List.flatMap_map]
  refine List.flatMap_congr fun entry _ => ?_
  rw [List.map_filterMap]
  refine List.filterMap_congr fun components _ => ?_
  cases sourceFile? entry.1 components <;> rfl

theorem mem_placedFiles_iff : (p, f) ∈ placedFiles tree ignoreDirs roots ↔
    ∃ root, roots[p.root]? = some root ∧ p.components ∈ filesBelow tree root ignoreDirs ∧
      sourceFile? root p.components = some f := by
  rw [placedFiles, List.mem_flatMap]
  constructor
  · rintro ⟨⟨root, i⟩, hroot, hmem⟩
    obtain ⟨components, hcomponents, hfile⟩ := List.mem_filterMap.mp hmem
    obtain ⟨f', hf', heq⟩ := Option.map_eq_some_iff.mp hfile
    obtain ⟨rfl, rfl⟩ := Prod.mk.inj heq
    exact ⟨root, List.mem_zipIdx_iff_getElem?.mp hroot, hcomponents, hf'⟩
  · rintro ⟨root, hroot, hcomponents, hfile⟩
    refine ⟨(root, p.root), List.mem_zipIdx_iff_getElem?.mpr hroot, ?_⟩
    exact List.mem_filterMap.mpr ⟨p.components, hcomponents, by rw [hfile]; rfl⟩

/-- Below a root the paths sort one after another. -/
theorem sorted_filesBelow (htree : tree.WellFormed) (root : Path) (ignoreDirs : List String) :
    (filesBelow tree root ignoreDirs).Pairwise fun a b =>
      "/".intercalate a < "/".intercalate b := by
  cases hl : tree.locate root with
  | error e =>
    rw [filesBelow, hl]
    exact .nil
  | ok l =>
    have hsorted : (filesBelow tree root ignoreDirs).Pairwise fun a b => precedes a b = true := by
      rw [filesBelow_eq hl]
      exact List.pairwise_mergeSort precedes_trans precedes_total _
    have hparts : ∀ components ∈ filesBelow tree root ignoreDirs,
        Path.componentsOf ("/".intercalate components).toList = components := by
      intro components hmem
      obtain ⟨content, hstands⟩ := exists_mem_of_mem_filesBelow hl hmem
      refine Path.componentsOf_intercalate ?_ fun part hpart => ?_
      · exact ne_nil_of_isScanned (isScanned_of_mem_filesBelow hmem)
      · exact (htree.names _ hstands part (List.mem_append_right _ hpart)).toIsFileName
    -- Different paths have different texts, so that none is as far on as another.
    refine ((nodup_filesBelow htree hl).and hsorted).imp_of_mem ?_
    rintro a b ha hb ⟨hne, hle⟩
    have htext : "/".intercalate a ≠ "/".intercalate b := by
      intro heq
      exact hne (by rw [← hparts a ha, heq, hparts b hb])
    exact lt_of_le_of_ne (of_decide_eq_true hle) htext

theorem ordered_placedFiles (htree : tree.WellFormed) (ignoreDirs : List String)
    (roots : List Path) :
    (placedFiles tree ignoreDirs roots).Pairwise fun a b => a.1.Precedes b.1 := by
  rw [placedFiles, List.pairwise_flatMap]
  constructor
  · rintro ⟨root, i⟩ -
    refine (sorted_filesBelow htree root ignoreDirs).filterMap _ fun a b hab x hx y hy => ?_
    obtain ⟨_, -, rfl⟩ := Option.map_eq_some_iff.mp hx
    obtain ⟨_, -, rfl⟩ := Option.map_eq_some_iff.mp hy
    exact .inr ⟨rfl, hab⟩
  · have hnumbers : (roots.zipIdx.map (·.2)).Pairwise (· < ·) := by
      rw [List.zipIdx_map_snd]
      exact List.pairwise_lt_range'
    refine (List.pairwise_map.mp hnumbers).imp fun {a b} hab x hx y hy => .inl ?_
    obtain ⟨_, -, hx⟩ := List.mem_filterMap.mp hx
    obtain ⟨_, -, hy⟩ := List.mem_filterMap.mp hy
    obtain ⟨_, -, rfl⟩ := Option.map_eq_some_iff.mp hx
    obtain ⟨_, -, rfl⟩ := Option.map_eq_some_iff.mp hy
    exact hab

/-! ## Trying files -/

/-- A source file of a module stands at a place below roots, and holds these bytes. -/
structure Holds (tree : FileTree) (ignoreDirs : List String) (roots : List Path) (name : String)
    (p : Place) (path : Path) (bytes : List UInt8) : Prop where
  below : ∃ root, roots[p.root]? = some root ∧ path = root.below p.components
  source : IsSourceOf ignoreDirs name p.components
  read : tree.read path = .ok bytes

/-- All source files of a module at places before this one fail: their bytes are no text, or
their text is no module. -/
def IsTried (tree : FileTree) (encoding : Text.Encoding) (ignoreDirs : List String)
    (roots : List Path) (name : String) (p : Place) : Prop :=
  ∀ q path bytes, Holds tree ignoreDirs roots name q path bytes → q.Precedes p →
    ∃ reason, SourceFile.parse encoding bytes = .error reason

theorem mem_placedFiles_iff_holds (htree : tree.WellFormed) :
    (p, f) ∈ placedFiles tree ignoreDirs roots ↔
      f.isPackage = (f.path.name == initialFile) ∧
        ∃ bytes, Holds tree ignoreDirs roots f.module p f.path bytes := by
  rw [mem_placedFiles_iff]
  constructor
  · rintro ⟨root, hroot, hmem, hfile⟩
    have hscanned := isScanned_of_mem_filesBelow hmem
    have hpath := path_of_sourceFile? hfile
    obtain ⟨⟨module, isPackage⟩, hname, heq⟩ := Option.map_eq_some_iff.mp hfile
    subst heq
    have hsource : IsSourceOf ignoreDirs module p.components :=
      isSourceOf_iff.mpr ⟨hscanned, isPackage, hname⟩
    obtain ⟨bytes, hbytes⟩ := FileTree.hasFile_iff.mp
      ((mem_filesBelow_iff htree hsource.dots_notMem).mp hmem).1
    exact ⟨isPackage_eq hscanned hname, bytes, ⟨root, hroot, rfl⟩, hsource, hbytes⟩
  · rintro ⟨hpackage, bytes, ⟨root, hroot, hpath⟩, hsource, hread⟩
    obtain ⟨hscanned, isPackage, hname⟩ := isSourceOf_iff.mp hsource
    rw [hpath] at hread hpackage
    refine ⟨root, hroot, (mem_filesBelow_iff htree hsource.dots_notMem).mpr
      ⟨FileTree.hasFile_iff.mpr ⟨bytes, hread⟩, hscanned⟩, ?_⟩
    obtain ⟨path, module, isPackage'⟩ := f
    simp only at hpath hname hpackage
    rw [← isPackage_eq hscanned hname] at hpackage
    rw [sourceFile?, hname, hpackage, hpath]
    rfl

/-- A source file of a module is one that a scan reads for it, and its bytes are what is parsed. -/
theorem Holds.mem_placedFiles {path : Path} {bytes : List UInt8} (htree : tree.WellFormed)
    (h : Holds tree ignoreDirs roots name p path bytes) :
    (p, ⟨path, name, path.name == initialFile⟩) ∈ placedFiles tree ignoreDirs roots :=
  (mem_placedFiles_iff_holds htree).mpr ⟨rfl, bytes, h⟩

theorem mem_sourceFiles_iff (htree : tree.WellFormed) : f ∈ sourceFiles tree ignoreDirs roots ↔
    f.isPackage = (f.path.name == initialFile) ∧
      ∃ p bytes, Holds tree ignoreDirs roots f.module p f.path bytes := by
  rw [← map_snd_placedFiles, List.mem_map]
  constructor
  · rintro ⟨⟨p, f⟩, hmem, rfl⟩
    obtain ⟨hpackage, bytes, hholds⟩ := (mem_placedFiles_iff_holds htree).mp hmem
    exact ⟨hpackage, p, bytes, hholds⟩
  · rintro ⟨hpackage, p, bytes, hholds⟩
    exact ⟨(p, f), (mem_placedFiles_iff_holds htree).mpr ⟨hpackage, bytes, hholds⟩, rfl⟩

/-- **A file has its turn for a module** when all files of the module before it in the list fail,
which is when those at places before its own do. -/
theorem exists_turn_iff (htree : tree.WellFormed) :
    (∃ before after, sourceFiles tree ignoreDirs roots = before ++ f :: after ∧
      ∀ g ∈ before, g.module = f.module → ∃ reason, g.reading tree encoding = .error reason) ↔
    f.isPackage = (f.path.name == initialFile) ∧
      ∃ p bytes, Holds tree ignoreDirs roots f.module p f.path bytes ∧
        IsTried tree encoding ignoreDirs roots f.module p := by
  have hordered := ordered_placedFiles htree ignoreDirs roots
  have hasymm : ∀ a b : Place × SourceFile, a.1.Precedes b.1 → ¬ b.1.Precedes a.1 :=
    fun _ _ h => h.asymm
  -- The list with places is split where the list without them is.
  have hsplit : (∃ before after, sourceFiles tree ignoreDirs roots = before ++ f :: after ∧
        ∀ g ∈ before, g.module = f.module → ∃ reason, g.reading tree encoding = .error reason) ↔
      ∃ p before after, placedFiles tree ignoreDirs roots = before ++ (p, f) :: after ∧
        ∀ b ∈ before, b.2.module = f.module →
          ∃ reason, b.2.reading tree encoding = .error reason := by
    rw [← map_snd_placedFiles]
    constructor
    · rintro ⟨before, after, heq, hbefore⟩
      obtain ⟨front, back, hplaced, rfl, hback⟩ := List.map_eq_append_iff.mp heq
      obtain ⟨⟨p, g⟩, rest, rfl, rfl, rfl⟩ := List.map_eq_cons_iff.mp hback
      refine ⟨p, front, rest, hplaced, fun b hb => hbefore b.2 (List.mem_map_of_mem hb)⟩
    · rintro ⟨p, before, after, heq, hbefore⟩
      refine ⟨before.map (·.2), after.map (·.2), by rw [heq]; simp, fun g hg => ?_⟩
      obtain ⟨b, hb, rfl⟩ := List.mem_map.mp hg
      exact hbefore b hb
  rw [hsplit]
  simp only [exists_split_iff hordered hasymm]
  constructor
  · rintro ⟨p, hmem, hearlier⟩
    obtain ⟨hpackage, bytes, hholds⟩ := (mem_placedFiles_iff_holds htree).mp hmem
    refine ⟨hpackage, p, bytes, hholds, fun q path bytes' hq hprecedes => ?_⟩
    obtain ⟨reason, hreason⟩ := hearlier _ (hq.mem_placedFiles htree) hprecedes rfl
    have hread := SourceFile.reading_of_read (f := ⟨path, f.module, path.name == initialFile⟩)
      hq.read encoding
    exact ⟨reason, hread ▸ hreason⟩
  · rintro ⟨hpackage, p, bytes, hholds, htried⟩
    refine ⟨p, (mem_placedFiles_iff_holds htree).mpr ⟨hpackage, bytes, hholds⟩, ?_⟩
    rintro ⟨q, g⟩ hg hprecedes hmodule
    obtain ⟨-, bytes', hq⟩ := (mem_placedFiles_iff_holds htree).mp hg
    obtain ⟨reason, hreason⟩ := htried q g.path bytes' (hmodule ▸ hq) hprecedes
    exact ⟨reason, (SourceFile.reading_of_read hq.read encoding).trans hreason⟩

/-- **What a scan tries, and in which order.** A first scan of roots that are there and lie apart
ends well. It loads a module just if a source file of the module is read as statements; it loads it
once, and from the first such file, root after root and path after path; and it reports the files
of the module that fail and come before that one, or all that fail if there is none, each once,
and no others. -/
theorem scan_tries_in_order (hscope : model.scope = {}) (helements : model.elements = none)
    (hencoding : Text.Encoding.ofName? model.encoding = some encoding) (htree : tree.WellFormed)
    (hroots : ∀ root ∈ model.roots, tree.isDirectory root = .ok true)
    (hapart : tree.Apart model.roots) (reports : Reports) :
    ∃ (scanned : StaticModel) (rejected : List (SourceFile × String)),
      model.scan tree reports = (scanned, ⟨reports.diagnostics ++
        rejected.map fun (f, reason) => f.rejection reason⟩, .ok ()) ∧
      (scanned.scope.modules.map (·.1)).Nodup ∧ (rejected.map (·.1.path)).Nodup ∧
      ∀ name,
        (scanned.scope.modules.has name = true ↔ ∃ p path bytes statements,
          Holds tree model.ignoreDirs model.roots name p path bytes ∧
          SourceFile.parse encoding bytes = .ok statements) ∧
        (∀ m, scanned.scope.modules.lookup name = some m ↔ ∃ p path bytes statements,
          Holds tree model.ignoreDirs model.roots name p path bytes ∧
          SourceFile.parse encoding bytes = .ok statements ∧
          IsTried tree encoding model.ignoreDirs model.roots name p ∧
          m = .ofStatements name path (path.name == initialFile) statements) ∧
        ∀ f reason, f.module = name → ((f, reason) ∈ rejected ↔
          f.isPackage = (f.path.name == initialFile) ∧ ∃ p bytes,
            Holds tree model.ignoreDirs model.roots name p f.path bytes ∧
            SourceFile.parse encoding bytes = .error reason ∧
            IsTried tree encoding model.ignoreDirs model.roots name p) := by
  have hscan : model.scan tree reports = _ := scan_eq helements hencoding hroots rfl
  have hkeyed := (grown_of_scan hscope helements hscan).modules
  have hnodup : ((sourceFiles tree model.ignoreDirs model.roots).map fun f =>
      tree.reach f.path).Nodup := nodup_sourceFiles htree hroots hapart
  refine ⟨_, _, hscan, hkeyed.nodup, nodup_rejected hnodup Scope.rejections_sublist, ?_⟩
  intro name
  -- A scan starts with no modules, so that what it has read comes from the files alone.
  have hnone : ({} : Scope).modules.lookup name = none := rfl
  refine ⟨?_, fun m => ?_, ?_⟩
  · simp only [withFiles, hscope, Scope.has_readFiles]
    constructor
    · rintro (h | ⟨f, hf, rfl, statements, hread⟩)
      · cases h
      · obtain ⟨-, p, bytes, hholds⟩ := (mem_sourceFiles_iff htree).mp hf
        rw [SourceFile.reading_of_read hholds.read] at hread
        exact ⟨p, f.path, bytes, statements, hholds, hread⟩
    · rintro ⟨p, path, bytes, statements, hholds, hparse⟩
      refine .inr ⟨⟨path, name, path.name == initialFile⟩, ?_, rfl, statements, ?_⟩
      · exact (mem_sourceFiles_iff htree).mpr ⟨rfl, p, bytes, hholds⟩
      · exact (SourceFile.reading_of_read hholds.read encoding).trans hparse
  · simp only [withFiles, hscope, Scope.lookup_readFiles, hnone, Option.none_or,
      List.findSome?_eq_some_iff, Scope.moduleFor?_eq_none_iff, Scope.moduleFor?_eq_some_iff]
    constructor
    · rintro ⟨before, f, after, hsplit, ⟨rfl, statements, hread, rfl⟩, hbefore⟩
      obtain ⟨hpackage, p, bytes, hholds, htried⟩ :=
        (exists_turn_iff htree).mp ⟨before, after, hsplit, hbefore⟩
      rw [SourceFile.reading_of_read hholds.read] at hread
      exact ⟨p, f.path, bytes, statements, hholds, hread, htried, by rw [hpackage]⟩
    · rintro ⟨p, path, bytes, statements, hholds, hparse, htried, rfl⟩
      have hturn : ∃ p bytes, Holds tree model.ignoreDirs model.roots name p path bytes ∧
          IsTried tree encoding model.ignoreDirs model.roots name p := ⟨p, bytes, hholds, htried⟩
      obtain ⟨before, after, hsplit, hbefore⟩ :=
        (exists_turn_iff (f := ⟨path, name, path.name == initialFile⟩) htree).mpr ⟨rfl, hturn⟩
      refine ⟨before, _, after, hsplit, ⟨rfl, statements, ?_, rfl⟩, hbefore⟩
      exact (SourceFile.reading_of_read hholds.read encoding).trans hparse
  · rintro f reason rfl
    have hread : ∀ g ∈ sourceFiles tree model.ignoreDirs model.roots,
        ∃ bytes, tree.read g.path = .ok bytes := by
      intro g hg
      obtain ⟨-, p, bytes, hholds⟩ := (mem_sourceFiles_iff htree).mp hg
      exact ⟨bytes, hholds.read⟩
    rw [mem_rejections_iff hscope hread]
    constructor
    · rintro ⟨before, after, bytes, hsplit, hbytes, hparse, hbefore⟩
      obtain ⟨hpackage, p, bytes', hholds, htried⟩ :=
        (exists_turn_iff htree).mp ⟨before, after, hsplit, hbefore⟩
      obtain rfl : bytes' = bytes := Except.ok.inj (hholds.read.symm.trans hbytes)
      exact ⟨hpackage, p, bytes', hholds, hparse, htried⟩
    · rintro ⟨hpackage, p, bytes, hholds, hparse, htried⟩
      obtain ⟨before, after, hsplit, hbefore⟩ :=
        (exists_turn_iff htree).mpr ⟨hpackage, p, bytes, hholds, htried⟩
      exact ⟨before, after, bytes, hsplit, hholds.read, hparse, hbefore⟩

/-- The stray file is reported: it is read for its module, and no file comes before it. -/
theorem stray_is_rejected : ∃ (scanned : StaticModel) (rejected : List (SourceFile × String)),
    strayModel.scan strayTree {} = (scanned, ⟨rejected.map fun (f, reason) =>
      f.rejection reason⟩, .ok ()) ∧
    (strayFile, "SyntaxError") ∈ rejected := by
  have hencoding : Text.Encoding.ofName? strayModel.encoding = some .utf8 := by decide +kernel
  have htree : strayTree.WellFormed := by decide +kernel
  have hroots : ∀ root ∈ strayModel.roots, strayTree.isDirectory root = .ok true := by
    decide +kernel
  have hapart : strayTree.Apart strayModel.roots := by decide +kernel
  obtain ⟨scanned, rejected, hscan, -, -, htried⟩ :=
    scan_tries_in_order rfl rfl hencoding htree hroots hapart {}
  refine ⟨scanned, rejected, hscan, ((htried "n").2.2 strayFile "SyntaxError" rfl).mpr ?_⟩
  have hturn : ∃ before after,
      sourceFiles strayTree [] strayModel.roots = before ++ strayFile :: after ∧
        ∀ g ∈ before, g.module = strayFile.module →
          ∃ reason, g.reading strayTree .utf8 = .error reason := by
    refine ⟨[⟨⟨.none, ["q", "m.py"]⟩, "m", false⟩], [], sourceFiles_stray, ?_⟩
    rintro g hg heq
    obtain rfl := List.mem_singleton.mp hg
    exact absurd heq (by decide)
  obtain ⟨hpackage, p, bytes, hholds, hearlier⟩ := (exists_turn_iff htree).mp hturn
  have hread : strayTree.read strayFile.path = .ok [0] := by rfl
  obtain rfl : bytes = [0] := Except.ok.inj (hholds.read.symm.trans hread)
  have htext : Text.decode .utf8 [0] = .ok ['\x00'] := rfl
  exact ⟨hpackage, p, [0], hholds, SourceFile.parse_of_null htext (by decide), hearlier⟩

end StaticModel

end Symbols

end ProviderRegistry
