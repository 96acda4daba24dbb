import Mathlib
import ProviderRegistry.Proofs.Generating
import ProviderRegistry.Proofs.Declarations

/-!
# Names and files of factory modules

The module of a contract stands below the source output in the file in which a scan looks for
a plain module of its name (`Generator.modulePath_eq`, `components_eq_sourceFile`), since its
name has neither dots nor slashes and is never that of the file that makes a directory a
package (`Naming.factoryModule_ne_init`).
-/

namespace ProviderRegistry

/-! ## Characters of snake case -/

namespace Text

theorem eq_of_toLower_eq {c d : Char} (h : c.toLower = d) (hd : d = '.' ∨ d = '/') : c = d := by
  rw [Char.toLower] at h
  split at h
  next hupper =>
    -- A small letter is neither of them.
    have hsmall : 97 ≤ d.toNat := by
      have hfirst : 65 ≤ c.val.toNat := UInt32.le_iff_toNat_le.mp hupper.1
      have hlast : c.val.toNat ≤ 90 := UInt32.le_iff_toNat_le.mp hupper.2
      have hshift : d.toNat = (c.val.toNat + 32) % 2 ^ 32 := by
        rw [← h]
        exact UInt32.toNat_add _ _
      omega
    rcases hd with rfl | rfl <;> exact absurd hsmall (by decide)
  next => exact h

theorem shift_lowercaseRuns : ∀ run ∈ lowercaseRuns, 48 ≤ run.first + run.shift := by
  decide +kernel

theorem toNat_ofNat_or (n : Nat) : (Char.ofNat n).toNat = n ∨ (Char.ofNat n).toNat = 0 := by
  unfold Char.ofNat
  split
  next => exact .inl rfl
  next => exact .inr rfl

/-- Lower-casing makes no dots and no slashes. -/
theorem eq_of_mem_lowerChar {c d : Char} (h : d ∈ lowerChar c) (hd : d = '.' ∨ d = '/') :
    c = d := by
  rw [lowerChar] at h
  split at h
  next => exact eq_of_toLower_eq (List.mem_singleton.mp h).symm hd
  next =>
    split at h
    next => rcases hd with rfl | rfl <;> simp at h
    next =>
      split at h
      next run hrun =>
        have hfirst := shift_lowercaseRuns run (Array.mem_of_find?_eq_some hrun)
        have hin := Array.find?_some hrun
        simp only [Bool.and_eq_true, decide_eq_true_eq] at hin
        have hpoint : d.toNat = 46 ∨ d.toNat = 47 := by rcases hd with rfl | rfl <;> decide
        rw [List.mem_singleton.mp h] at hpoint
        have hofNat := toNat_ofNat_or (Int.toNat (c.toNat + run.shift))
        omega
      next => exact (List.mem_singleton.mp h).symm

theorem mem_of_mem_lowerFrom {before text : List Char} {d : Char} (h : d ∈ lowerFrom before text)
    (hd : d = '.' ∨ d = '/') : d ∈ text := by
  induction text generalizing before with
  | nil => cases h
  | cons c rest ih =>
    rw [lowerFrom] at h
    rcases List.mem_append.mp h with h | h
    · have hlower : d ∈ lowerChar c := by
        split at h
        next =>
          split at h
          next => rcases hd with rfl | rfl <;> simp at h
          next => rcases hd with rfl | rfl <;> simp at h
        next => exact h
      exact eq_of_mem_lowerChar hlower hd ▸ List.mem_cons_self
    · exact List.mem_cons_of_mem _ (ih h)

/-- Lower-casing keeps a small letter at the end. -/
theorem getLast?_lowerFrom_concat (before init : List Char) :
    (lowerFrom before (init ++ ['y'])).getLast? = some 'y' := by
  induction init generalizing before with
  | nil => rfl
  | cons c rest ih =>
    have hne : lowerFrom (c :: before) (rest ++ ['y']) ≠ [] := by
      intro hnil
      have hlast := ih (c :: before)
      rw [hnil] at hlast
      cases hlast
    rw [List.cons_append, lowerFrom, List.getLast?_append_of_ne_nil _ hne]
    exact ih (c :: before)

end Text

namespace Naming

open Text

/-- A text with underscores put in front of some of its characters. -/
inductive Underscored : List Char → List Char → Prop
  | nil : Underscored [] []
  | keep {text result : List Char} (c : Char) : Underscored text result →
      Underscored (c :: text) (c :: result)
  | separate {text result : List Char} (c : Char) : Underscored text result →
      Underscored (c :: text) ('_' :: c :: result)

namespace Underscored

variable {text result : List Char}

theorem refl (text : List Char) : Underscored text text := by
  induction text with
  | nil => exact .nil
  | cons c rest ih => exact .keep c ih

theorem append_left (before : List Char) (h : Underscored text result) :
    Underscored (before ++ text) (before ++ result) := by
  induction before with
  | nil => exact h
  | cons c rest ih => exact .keep c ih

theorem mem (h : Underscored text result) {c : Char} (hc : c ∈ result) : c = '_' ∨ c ∈ text := by
  induction h with
  | nil => cases hc
  | keep d _ ih =>
    rcases List.mem_cons.mp hc with rfl | hc
    · exact .inr List.mem_cons_self
    · exact (ih hc).imp_right (List.mem_cons_of_mem _)
  | separate d _ ih =>
    rcases List.mem_cons.mp hc with rfl | hc
    · exact .inl rfl
    · rcases List.mem_cons.mp hc with rfl | hc
      · exact .inr List.mem_cons_self
      · exact (ih hc).imp_right (List.mem_cons_of_mem _)

/-- The last character stays last. -/
theorem getLast?_eq (h : Underscored text result) : result.getLast? = text.getLast? := by
  induction h with
  | nil => rfl
  | keep c _ ih => rw [List.getLast?_cons, List.getLast?_cons, ih]
  | separate c _ ih => rw [List.getLast?_cons_cons, List.getLast?_cons, List.getLast?_cons, ih]

end Underscored

theorem underscored_separateWords (text : List Char) : Underscored text (separateWords text) := by
  fun_induction separateWords text with
  | case1 => exact .nil
  | case2 c => exact .refl [c]
  | case3 c d rest hsplit ih =>
    have hrest := ih.append_left (rest.takeWhile isSmall)
    rw [List.takeWhile_append_dropWhile] at hrest
    exact .keep c (.separate d hrest)
  | case4 c d rest hsplit ih => exact .keep c ih

theorem underscored_separateCapitals (text : List Char) :
    Underscored text (separateCapitals text) := by
  fun_induction separateCapitals text with
  | case1 => exact .nil
  | case2 c => exact .refl [c]
  | case3 c d rest hsplit ih => exact .keep c (.separate d ih)
  | case4 c d rest hsplit ih => exact .keep c ih

/-- The dots and slashes of a module name are those of the class name. -/
theorem mem_of_mem_factoryModule {simpleName : String} {c : Char}
    (h : c ∈ (factoryModule simpleName).toList) (hc : c = '.' ∨ c = '/') :
    c ∈ simpleName.toList := by
  rw [factoryModule, snakeCase, String.toList_ofList, snakeCaseChars, lower] at h
  have hunderscore : c ≠ '_' := by rcases hc with rfl | rfl <;> decide
  have hcapitals := ((underscored_separateCapitals _).mem (mem_of_mem_lowerFrom h hc)).resolve_left
    hunderscore
  have hwords := ((underscored_separateWords _).mem hcapitals).resolve_left hunderscore
  rw [factoryClass, String.toList_append, List.mem_append] at hwords
  refine hwords.resolve_right fun hsuffix => ?_
  rcases hc with rfl | rfl <;> exact absurd hsuffix (by decide)

/-- Where a factory is placed tells its package and its module apart. -/
theorem factoryModuleIn_inj {package package' name name' : String} :
    factoryModuleIn package (splitLastDot name).2 =
        factoryModuleIn package' (splitLastDot name').2 ↔
      package = package' ∧
        factoryModule (splitLastDot name).2 = factoryModule (splitLastDot name').2 := by
  have hparts (name : String) : dottedParts (factoryModule (splitLastDot name).2) =
      [factoryModule (splitLastDot name).2] := by
    refine dottedParts_of_notMem fun hdot => ?_
    have hmem : (splitLastDot name).2 ∈ dottedParts (splitLastDot name).2 := by
      rw [dottedParts_splitLastDot_snd]
      exact List.mem_singleton.mpr rfl
    exact dot_notMem_of_mem hmem (mem_of_mem_factoryModule hdot (.inl rfl))
  rw [factoryModuleIn, factoryModuleIn]
  refine ⟨fun heq => ?_, fun ⟨hpackage, hmodule⟩ => by rw [hpackage, hmodule]⟩
  have hsplit := congrArg splitLastDot heq
  rw [splitLastDot_qualify _ (hparts name), splitLastDot_qualify _ (hparts name')] at hsplit
  exact Prod.mk.inj hsplit

/-- A factory module is never named like the file that makes a directory a package. -/
theorem factoryModule_ne_init (simpleName : String) : factoryModule simpleName ≠ "__init__" := by
  intro h
  have hlast : (separateCapitals (separateWords (factoryClass simpleName).toList)).getLast? =
      some 'y' := by
    rw [(underscored_separateCapitals _).getLast?_eq, (underscored_separateWords _).getLast?_eq,
      factoryClass, String.toList_append]
    exact List.getLast?_append_of_ne_nil _ (by decide)
  obtain ⟨init, hinit⟩ := List.getLast?_eq_some_iff.mp hlast
  have hchars := congrArg (fun s => s.toList.getLast?) h
  simp only [factoryModule, snakeCase, String.toList_ofList, snakeCaseChars, lower] at hchars
  rw [hinit, getLast?_lowerFrom_concat] at hchars
  exact absurd hchars (by decide)

end Naming

/-! ## Files of modules -/

namespace Path

/-- The path of some components below a base. -/
def below (base : Path) (components : List String) : Path :=
  ⟨base.root, base.parts ++ components⟩

theorem ofString_eq {name : String} (h : IsFileName name) : ofString name = ⟨.none, [name]⟩ := by
  have hempty : name.toList ≠ [] := fun he => h.ne_empty (String.toList_eq_nil_iff.mp he)
  have hdot : name.toList ≠ ['.'] := fun hd => h.ne_dot (String.toList_inj.mp hd)
  have hpieces : Text.pieces (· == '/') name.toList = [name.toList] := by
    refine Text.pieces_eq_singleton fun c hc => ?_
    rw [beq_eq_false_iff_ne]
    rintro rfl
    exact h.noSlash hc
  have hroot : rootOf name.toList = .none := by
    cases hl : name.toList with
    | nil => exact absurd hl hempty
    | cons c rest =>
      have hc : c ≠ '/' := by
        rintro rfl
        exact h.noSlash (hl ▸ List.mem_cons_self)
      simp [rootOf, hc]
  rw [ofString, hroot, componentsOf, hpieces]
  simp [hempty, hdot]

theorem child_eq {name : String} (h : IsFileName name) (base : Path) :
    base.child name = base.below [name] := by
  rw [child, ofString_eq h]
  rfl

theorem foldl_child_eq {names : List String} (h : ∀ name ∈ names, IsFileName name) (base : Path) :
    names.foldl child base = base.below names := by
  induction names generalizing base with
  | nil => rw [List.foldl_nil, below, List.append_nil]
  | cons name rest ih =>
    rw [List.forall_mem_cons] at h
    rw [List.foldl_cons, child_eq h.1, ih h.2, below, below, below, List.append_assoc]
    rfl

end Path

/-- The location of a path without double dots below a base. -/
theorem FileTree.reach_below {components : List String} (h : ".." ∉ components)
    (tree : FileTree) (base : Path) :
    tree.reach (base.below components) = tree.reach base ++ components := by
  have henter (here : Location) : components.foldl enter here = here ++ components := by
    induction components generalizing here with
    | nil => rw [List.foldl_nil, List.append_nil]
    | cons part rest ih =>
      obtain ⟨hpart, hrest⟩ := List.ne_and_not_mem_of_not_mem_cons h
      rw [List.foldl_cons, ih hrest, enter, if_neg hpart.symm, List.append_assoc]
      rfl
  rw [reach, reach, Path.below, List.foldl_append, henter]
  rfl

/-- Where the file of a plain module stands below a root. -/
def sourceFile (name : String) : List String :=
  (dottedParts name).dropLast ++ [(dottedParts name).getLastD "" ++ ".py"]

theorem exists_dottedParts_eq (name : String) :
    ∃ before last, dottedParts name = before ++ [last] :=
  (List.eq_nil_or_concat' (dottedParts name)).resolve_left (dottedParts_ne_nil name)

theorem sourceFile_concat {before : List String} {last : String} {name : String}
    (h : dottedParts name = before ++ [last]) : sourceFile name = before ++ [last ++ ".py"] := by
  rw [sourceFile, h, List.dropLast_concat, List.getLastD_concat]

/-- Modules of different names stand in different files. -/
theorem sourceFile_inj {name name' : String} :
    sourceFile name = sourceFile name' ↔ name = name' := by
  refine ⟨fun h => ?_, fun h => h ▸ rfl⟩
  obtain ⟨before, last, hparts⟩ := exists_dottedParts_eq name
  obtain ⟨before', last', hparts'⟩ := exists_dottedParts_eq name'
  rw [sourceFile_concat hparts, sourceFile_concat hparts', List.append_singleton_inj,
    String.append_left_inj] at h
  rw [← joinDots_dottedParts name, ← joinDots_dottedParts name', hparts, hparts', h.1, h.2]

theorem dots_notMem_dottedParts (name : String) : ".." ∉ dottedParts name := by
  intro hmem
  have hdots : dottedParts ".." = [".."] := dottedParts_of_mem hmem
  exact absurd hdots (by decide)

theorem dots_notMem_sourceFile (name : String) : ".." ∉ sourceFile name := by
  rw [sourceFile, List.mem_append, List.mem_singleton, not_or]
  refine ⟨fun hmem => dots_notMem_dottedParts name (List.dropLast_subset _ hmem), fun heq => ?_⟩
  have hends : ".py".toList <:+ "..".toList := by
    rw [heq, String.toList_append]
    exact List.suffix_append _ _
  exact absurd hends (by decide)

/-! ### Files of factories -/

namespace Element

/-- The simple name of a class is also the last component of its qualified name. -/
theorem simpleName_eq (e : Element) : e.simpleName = (splitLastDot e.qualifiedName).2 := by
  rw [simpleName, qualifiedName, splitLastDot_snd, splitLastDot_snd]
  by_cases hempty : e.module = ""
  · rw [hempty]
    rfl
  · rw [qualify_of_ne_empty hempty, dottedParts_append]
    have hne := dottedParts_ne_nil e.qualname
    simp only [List.getLastD_eq_getLast?, List.getLast?_append_of_ne_nil _ hne]

variable {e : Element} (h : IsDotted e.qualifiedName)

include h

/-- A class whose qualified name is a dotted one belongs to a package with a dotted name, or
to none. -/
theorem isDotted_packageName : e.packageName = "" ∨ IsDotted e.packageName := by
  have hmodule : e.module = "" ∨ IsDotted e.module := by
    by_cases hempty : e.module = ""
    · exact .inl hempty
    · rw [qualifiedName, qualify_of_ne_empty hempty, IsDotted.append_iff] at h
      exact .inr h.1
  rw [packageName]
  split
  next => exact hmodule
  next =>
    rcases hmodule with hempty | hdotted
    · rw [hempty]
      exact .inl rfl
    · rw [splitLastDot_fst]
      exact Symbols.isDotted_joinDots_or fun part hpart =>
        hdotted.dottedParts (List.dropLast_subset _ hpart)

/-- The name of its factory module has neither dots nor slashes. -/
theorem notMem_factoryModule {c : Char} (hc : c = '.' ∨ c = '/') :
    c ∉ (Naming.factoryModule e.simpleName).toList := by
  have hpart : e.simpleName ∈ dottedParts e.qualifiedName := by
    rw [e.simpleName_eq, splitLastDot_snd, List.getLastD_eq_getLast?,
      List.getLast?_eq_getLast_of_ne_nil (dottedParts_ne_nil _)]
    exact List.getLast_mem _
  intro hmem
  have hsimple := Naming.mem_of_mem_factoryModule hmem hc
  rcases hc with rfl | rfl
  · exact dot_notMem_of_mem hpart hsimple
  · exact (h.dottedParts hpart).notMem (by decide) (by decide) hsimple

end Element

namespace Registry.Output

theorem modulePath_eq {package module : String} (hpackage : package = "" ∨ IsDotted package)
    (hdot : '.' ∉ module.toList) (hslash : '/' ∉ module.toList) (output : Output) :
    output.modulePath package module =
      output.sourceOutput.below (sourceFile (qualify package module)) := by
  have hmodule := dottedParts_of_notMem hdot
  have hfile : IsFileName (module ++ ".py") := by
    have hlong : 3 ≤ (module ++ ".py").toList.length := by
      rw [String.toList_append, List.length_append]
      exact Nat.le_add_left _ _
    refine ⟨?_, ?_, ?_, ?_⟩
    · rw [String.toList_append, List.mem_append, not_or]
      exact ⟨hslash, by decide⟩
    · intro heq
      rw [heq] at hlong
      exact absurd hlong (by decide)
    · intro heq
      rw [heq] at hlong
      exact absurd hlong (by decide)
    · intro heq
      rw [heq] at hlong
      exact absurd hlong (by decide)
  rw [modulePath, sourceFile_concat (dottedParts_qualify package hmodule)]
  by_cases hempty : package = ""
  · rw [hempty]
    exact Path.child_eq hfile _
  · have hnames : ∀ part ∈ dottedParts package, IsFileName part := fun part hpart =>
      ((hpackage.resolve_left hempty).dottedParts hpart).isFileName
    rw [if_neg (fun h => hempty (String.isEmpty_iff.mp h)), Path.foldl_child_eq hnames,
      Path.child_eq hfile, if_neg hempty, Path.below, Path.below, Path.below, List.append_assoc]

end Registry.Output

namespace Factory

variable {contract : Element} (h : IsDotted contract.qualifiedName) (g : Generator)

include h

/-- The factory module of a contract stands where a scan of the output looks for it. -/
theorem Generator.modulePath_eq (output : Registry.Output) :
    g.modulePath output contract =
      output.sourceOutput.below (sourceFile (g.source contract).qualifiedModule) :=
  Registry.Output.modulePath_eq (Element.isDotted_packageName h)
    (Element.notMem_factoryModule h (.inl rfl)) (Element.notMem_factoryModule h (.inr rfl)) output

/-- No factory module makes a directory a package. -/
theorem sourceFile_ne_package (directories : List String) :
    sourceFile (g.source contract).qualifiedModule ≠ directories ++ ["__init__.py"] := by
  have hmodule := dottedParts_of_notMem (Element.notMem_factoryModule h (.inl rfl))
  have hparts := dottedParts_qualify contract.packageName hmodule
  have hinit : "__init__.py" = "__init__" ++ ".py" := by decide
  change sourceFile (qualify contract.packageName (Naming.factoryModule contract.simpleName)) ≠ _
  rw [sourceFile_concat hparts, hinit]
  intro heq
  have hlast := (List.append_singleton_inj.mp heq).2
  exact Naming.factoryModule_ne_init _ ((String.append_left_inj _).mp hlast)

omit h in
/-- The factory module of a contract is named like the module that declares the contract when
this is a plain module with the name of the factory module. -/
theorem qualifiedModule_eq_module_iff (hmodule : IsDotted contract.module) :
    (g.source contract).qualifiedModule = contract.module ↔ contract.isPackage = false ∧
      Naming.factoryModule contract.simpleName = (splitLastDot contract.module).2 := by
  change qualify contract.packageName (Naming.factoryModule contract.simpleName) = _ ↔ _
  have hne : contract.module ≠ "" := fun hempty => hmodule.ne_nil (by rw [hempty]; rfl)
  cases hpackage : contract.isPackage with
  | true =>
    -- A module below a package is not the package.
    rw [Element.packageName, hpackage, if_pos rfl, qualify_of_ne_empty hne]
    refine ⟨fun heq => ?_, fun h => absurd h.1.symm Bool.false_ne_true⟩
    have hlength := congrArg (fun name => name.toList.length) heq
    have hdot : ".".toList.length = 1 := rfl
    simp only [String.toList_append, List.length_append] at hlength
    omega
  | false =>
    rw [Element.packageName, hpackage, if_neg Bool.false_ne_true, and_iff_right rfl]
    have hsplit := qualify_splitLastDot hmodule
    exact ⟨fun heq => qualify_right_inj.mp (heq.trans hsplit.symm), fun heq => heq ▸ hsplit⟩

end Factory

/-! ### Files that a scan reads -/

namespace Symbols.StaticModel

variable {tree : FileTree} {root : Path} {ignoreDirs components : List String} {name : String}

theorem isScanned_of_mem_filesBelow (h : components ∈ filesBelow tree root ignoreDirs) :
    isScanned ignoreDirs components = true := by
  rw [filesBelow] at h
  split at h
  next => cases h
  next =>
    rw [List.mem_mergeSort, List.mem_filterMap] at h
    obtain ⟨⟨m, node⟩, -, hentry⟩ := h
    cases node with
    | directory => cases hentry
    | file content =>
      simp only at hentry
      split at hentry
      next hscanned =>
        obtain rfl := Option.some.inj hentry
        exact (Bool.and_eq_true_iff.mp hscanned).2
      next => cases hentry

/-- The name of a file that is read is a stem with an ending. -/
theorem exists_stem (h : isScanned ignoreDirs components = true) :
    ∃ before stem, components = before ++ [stem ++ ".py"] ∧
      ((components.getLastD "").dropEnd 3).toString = stem := by
  have hends : ".py".toList <:+ (components.getLastD "").toList := by
    rw [isScanned] at h
    have hends := (Bool.and_eq_true_iff.mp h).2
    rw [String.endsWith_eq_endsWith_toSlice, String.Slice.endsWith_string_iff] at hends
    simpa using hends
  rcases List.eq_nil_or_concat' components with rfl | ⟨before, last, rfl⟩
  · exact absurd hends (by decide)
  · rw [List.getLastD_concat] at hends ⊢
    obtain ⟨stem, hstem⟩ := hends
    have hlast : last = String.ofList stem ++ ".py" := by
      rw [← String.toList_inj, String.toList_append, String.toList_ofList, hstem]
    refine ⟨before, String.ofList stem, by rw [hlast], ?_⟩
    rw [hlast, ← String.toList_inj]
    simp

theorem moduleName?_concat {before : List String} {stem : String} {isPackage : Bool}
    (hcomponents : components = before ++ [stem ++ ".py"])
    (hstem : ((components.getLastD "").dropEnd 3).toString = stem)
    (h : moduleName? components = some (name, isPackage)) :
    isPackage = (stem == "__init__") ∧
      dottedParts name = if isPackage then before else before ++ [stem] := by
  unfold moduleName? at h
  extract_lets stem' isInitial parts at h
  have hstem' : stem' = stem := hstem
  have hbefore : components.dropLast = before := by rw [hcomponents, List.dropLast_concat]
  split at h
  next => cases h
  next hparts =>
    simp only [Bool.or_eq_true, Bool.not_eq_true', not_or, Bool.not_eq_true, Bool.not_eq_false,
      List.isEmpty_eq_false_iff, List.all_eq_true] at hparts
    obtain ⟨rfl, hinitial⟩ := Prod.mk.inj (Option.some.inj h)
    have hall : dottedParts (joinDots parts) = parts :=
      dottedParts_joinDots hparts.1 fun part hpart =>
        dottedParts_of_isIdentifier (hparts.2 part hpart)
    refine ⟨by rw [← hinitial, ← hstem'], ?_⟩
    rw [hall, ← hinitial, ← hbefore, ← hstem']

/-- A plain module is read from the file of its name. -/
theorem components_eq_sourceFile (hscanned : isScanned ignoreDirs components = true)
    (h : moduleName? components = some (name, false)) : components = sourceFile name := by
  obtain ⟨before, stem, hcomponents, hstem⟩ := exists_stem hscanned
  obtain ⟨-, hparts⟩ := moduleName?_concat hcomponents hstem h
  rw [if_neg Bool.false_ne_true] at hparts
  rw [hcomponents, sourceFile_concat hparts]

/-- A package is read from the file that makes its directory one. -/
theorem components_of_package (hscanned : isScanned ignoreDirs components = true)
    (h : moduleName? components = some (name, true)) :
    components = dottedParts name ++ ["__init__.py"] := by
  obtain ⟨before, stem, hcomponents, hstem⟩ := exists_stem hscanned
  obtain ⟨hinitial, hparts⟩ := moduleName?_concat hcomponents hstem h
  rw [if_pos rfl] at hparts
  rw [hcomponents, hparts, eq_of_beq hinitial.symm]
  rfl

end Symbols.StaticModel

end ProviderRegistry
