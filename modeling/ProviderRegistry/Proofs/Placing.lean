import ProviderRegistry.Proofs.FactoryModules
import ProviderRegistry.Proofs.ProviderNames
import ProviderRegistry.Proofs.Referring
import ProviderRegistry.World.Access

/-!
# Where factories are placed and where they are looked for

Getting an instance of a contract imports one module, whose name follows from the module
that declares the contract, from its own name and from what is a package (`World.looksIn_iff`).
The module that is generated for a contract has its name from what a scan knows of the
contract. Both agree about a contract that the sources declare when the scan and the world
agree on what is a package. A contract that no source declares is taken for a class of a
plain module (`found_where_generated`).
-/

namespace ProviderRegistry

open Symbols Registry World Factory

/-! ## Packages -/

/-- The first components of a dotted name tell how many they are. -/
theorem joinDots_take_inj {name : String} (h : IsDotted name) {n k : Nat}
    (hn : n ≤ (dottedParts name).length) (hk : k ≤ (dottedParts name).length) :
    joinDots ((dottedParts name).take n) = joinDots ((dottedParts name).take k) ↔ n = k := by
  have hpart {i : Nat} : ∀ part ∈ (dottedParts name).take i, part ∈ dottedParts name :=
    fun _ hpart => List.mem_of_mem_take hpart
  have hempty {i : Nat} : "" ∉ (dottedParts name).take i :=
    fun hmem => (h.dottedParts (hpart _ hmem)).ne_nil rfl
  have hparts {i : Nat} : ∀ part ∈ (dottedParts name).take i, dottedParts part = [part] :=
    fun part hmem => dottedParts_of_mem (hpart part hmem)
  rw [joinDots_inj hempty hempty hparts hparts, List.take_eq_take_iff, Nat.min_eq_left hn,
    Nat.min_eq_left hk]

namespace Element

/-- A class that nothing declares is taken for one that its module declares at the top, and
its module for a plain one. -/
theorem packageName_undeclared (name : String) :
    (undeclared name).packageName = joinDots (dottedParts name).dropLast.dropLast := by
  change (splitLastDot (splitLastDot name).1).1 = _
  rw [splitLastDot_fst, splitLastDot_fst]
  by_cases hnil : (dottedParts name).dropLast = []
  · rw [hnil]
    rfl
  · rw [dottedParts_joinDots hnil fun part hpart =>
      dottedParts_of_mem (List.dropLast_subset _ hpart)]

end Element

/-! ## Where a factory is looked for -/

namespace World

/-- The package around a module, which is the module itself if that is a package. -/
def packageIn (w : World) (module : String) : String :=
  if w.isPackage module then module else (Naming.splitModule module).1

/-- An object is known by its module and by its name in the module, whose last component is
its own name. -/
structure KnownAs (w : World) (o : Object) (module qualname : String) : Prop where
  module : ((textAttribute o "__module__").run w).1 = .ok module
  name : ((textAttribute o "__name__").run w).1 = .ok (splitLastDot qualname).2
  qualname : ((textAttribute o "__qualname__").run w).1 = .ok qualname

/-- Getting an instance of a contract once it is known which module to import. -/
def accessThrough (importer : Importer) (module name : String) (contract : Object) :
    Run Object := do
  match ← (fromFactory importer module name contract).outcome with
  | .ok o => return o
  | .error e =>
    if e.isA "Exception" then
      let refusal : Raised := {
        kind := "ServiceFactoryError"
        message := "Could not find or invoke factory method " ++ Naming.accessorName ++ "() on " ++
          module }
      throw (refusal.causedBy e)
    else throw e

/-- Getting an instance of a contract imports a module and takes the factory from it, however
modules are imported. -/
def LooksIn (w : World) (contract : Object) (module : String) : Prop :=
  ∃ name, ∀ importer, (accessInstance importer contract).run w =
    (accessThrough importer module name contract).run w

variable {w : World} {o : Object} {module qualname : String}

theorem run_textAttribute {name text : String}
    (h : ((textAttribute o name).run w).1 = .ok text) :
    (textAttribute o name).run w = (.ok text, w) := by
  obtain ⟨result, hresult⟩ := steady_textAttribute w o name
  have hrun : (textAttribute o name).run w = (result, w) := hresult w.files
  rw [hrun] at h ⊢
  exact congrArg (fun result => (result, w)) h

theorem KnownAs.run_accessInstance (h : w.KnownAs o module qualname) (importer : Importer) :
    (accessInstance importer o).run w =
      (accessThrough importer
        (Naming.factoryModuleIn (w.packageIn module) (splitLastDot qualname).2)
        (splitLastDot qualname).2 o).run w := by
  have hpackage : (packageOf o).run w = (.ok (w.packageIn module), w) := by
    rw [packageOf, Leaves.run_bind, run_textAttribute h.module]
    rfl
  have haccess : accessInstance importer o = (do
      let package ← packageOf o
      let name ← textAttribute o "__name__"
      accessThrough importer (Naming.factoryModuleIn package name) name o) := rfl
  rw [haccess, Leaves.run_bind, hpackage]
  simp only
  rw [Leaves.run_bind, run_textAttribute h.name]

/-- When nothing can be imported, the exception names the module. -/
theorem accessThrough_refused (module name : String) (o : Object) (w : World) :
    (accessThrough (fun _ => Run.raise "Exception" "") module name o).run w =
      (.error {
        kind := "ServiceFactoryError"
        message := "Could not find or invoke factory method " ++ Naming.accessorName ++ "() on " ++
          module
        causes := ["Exception"] }, w) := rfl

/-- **Where a factory is looked for.** -/
theorem KnownAs.looksIn_iff (h : w.KnownAs o module qualname) {wanted : String} :
    w.LooksIn o wanted ↔
      wanted = Naming.factoryModuleIn (w.packageIn module) (splitLastDot qualname).2 := by
  constructor
  · rintro ⟨name, hname⟩
    have hrefused := hname fun _ => Run.raise "Exception" ""
    rw [h.run_accessInstance, accessThrough_refused, accessThrough_refused] at hrefused
    have hmessage := congrArg Raised.message (Except.error.inj (Prod.mk.inj hrefused).1)
    exact String.toList_inj.mp (List.append_cancel_left
      (by simpa only [String.toList_append] using congrArg String.toList hmessage.symm))
  · rintro rfl
    exact ⟨_, h.run_accessInstance⟩

end World

/-! ## Where a factory is generated -/

section

variable {w : World} {o : Object} {module qualname : String} {contract : Element} {name : String}

/-- The module that is generated for a contract is the one that is looked for when both sides
agree on the package of the contract and on the name that the module gets from its own. -/
theorem looksIn_source_iff (hknown : w.KnownAs o module qualname) (g : Generator) :
    w.LooksIn o (g.source contract).qualifiedModule ↔
      contract.packageName = w.packageIn module ∧
        Naming.factoryModule contract.simpleName =
          Naming.factoryModule (splitLastDot qualname).2 := by
  rw [hknown.looksIn_iff, contract.simpleName_eq, ← Naming.factoryModuleIn_inj,
    ← contract.simpleName_eq]
  rfl

/-- Of a contract that both know by one name only the package can be in doubt. -/
theorem looksIn_iff_packageName (hknown : w.KnownAs o module qualname)
    (hname : contract.qualifiedName = module ++ "." ++ qualname) (g : Generator) :
    w.LooksIn o (g.source contract).qualifiedModule ↔
      contract.packageName = w.packageIn module := by
  have hsimple : contract.simpleName = (splitLastDot qualname).2 := by
    have hne := dottedParts_ne_nil qualname
    rw [contract.simpleName_eq, hname, splitLastDot_snd, splitLastDot_snd, dottedParts_append]
    simp only [List.getLastD_eq_getLast?, List.getLast?_append_of_ne_nil _ hne]
  rw [looksIn_source_iff hknown, hsimple, and_iff_left rfl]

/-- The package around a module in a world, by the components of the module's name. -/
theorem packageIn_eq (w : World) (module : String) :
    w.packageIn module = joinDots ((dottedParts module).take
      ((dottedParts module).length - if w.isPackage module then 0 else 1)) := by
  rw [World.packageIn]
  split
  · rw [Nat.sub_zero, List.take_length, joinDots_dottedParts]
  · rw [Naming.splitModule, splitLastDot_fst, List.dropLast_eq_take]

/-- Both agree on the package of a contract whose module both know just when they agree on
whether the module is one. -/
theorem packageName_eq_iff_of_module (hdotted : IsDotted module)
    (hmodule : contract.module = module) :
    contract.packageName = w.packageIn module ↔ contract.isPackage = w.isPackage module := by
  have hlength : 0 < (dottedParts module).length :=
    List.length_pos_iff.mpr (dottedParts_ne_nil module)
  have hpackage : contract.packageName = joinDots ((dottedParts module).take
      ((dottedParts module).length - if contract.isPackage then 0 else 1)) := by
    rw [Element.packageName, hmodule]
    split
    · rw [Nat.sub_zero, List.take_length, joinDots_dottedParts]
    · rw [splitLastDot_fst, List.dropLast_eq_take]
  rw [hpackage, packageIn_eq, joinDots_take_inj hdotted (Nat.sub_le _ _) (Nat.sub_le _ _)]
  cases contract.isPackage <;> cases w.isPackage module <;> simp <;> omega

/-- Of a contract that no source declares the sources know the package when its own name
stands at the right depth: at the top of a plain module, or in a class at the top of a
package. -/
theorem packageName_undeclared_eq_iff (hdotted : IsDotted (module ++ "." ++ qualname)) :
    (Element.undeclared (module ++ "." ++ qualname)).packageName = w.packageIn module ↔
      (dottedParts qualname).length = if w.isPackage module then 2 else 1 := by
  have hmodule : 0 < (dottedParts module).length :=
    List.length_pos_iff.mpr (dottedParts_ne_nil module)
  have hqualname : 0 < (dottedParts qualname).length :=
    List.length_pos_iff.mpr (dottedParts_ne_nil qualname)
  have hparts := dottedParts_append module qualname
  have hlength := congrArg List.length hparts
  rw [List.length_append] at hlength
  -- Both packages are first components of the contract's name, so that their numbers settle it.
  have hin : w.packageIn module = joinDots ((dottedParts (module ++ "." ++ qualname)).take
      ((dottedParts module).length - if w.isPackage module then 0 else 1)) := by
    rw [packageIn_eq, hparts, List.take_append_of_le_length (Nat.sub_le _ _)]
  have hpackage : (Element.undeclared (module ++ "." ++ qualname)).packageName =
      joinDots ((dottedParts (module ++ "." ++ qualname)).take
        ((dottedParts module).length + (dottedParts qualname).length - 2)) := by
    rw [Element.packageName_undeclared, List.dropLast_eq_take, List.dropLast_eq_take,
      List.take_take, List.length_take, hlength]
    congr 2
    omega
  rw [hpackage, hin, joinDots_take_inj hdotted (by omega) (by omega)]
  split <;> omega

open StaticModel in
/-- **A factory is generated where it is looked for** just when the scan and the world agree
on the package of its contract and on how its module is named. Where both know the contract
by one name, they agree about one that the sources declare when they agree on whether its
module is a package. A contract that no source declares must stand at the top of a plain
module, or in a class at the top of a package. -/
theorem found_where_generated {model scanned : StaticModel} {tree : FileTree}
    {reports reports' : Reports} {markers : List String} (hscope : model.scope = {})
    (helements : model.elements = none)
    (hscan : model.scan tree reports = (scanned, reports', .ok ()))
    (hrequest : contract ∈ requestedFactories (acceptedBindings scanned markers))
    (hknown : w.KnownAs o module qualname) (g : Generator) :
    (w.LooksIn o (g.source contract).qualifiedModule ↔
      contract.packageName = w.packageIn module ∧
        Naming.factoryModule contract.simpleName =
          Naming.factoryModule (splitLastDot qualname).2) ∧
    (contract.qualifiedName = module ++ "." ++ qualname →
      (scanned.found.lookup contract.qualifiedName = some contract ∧
        (contract.module = module → (w.LooksIn o (g.source contract).qualifiedModule ↔
          contract.isPackage = w.isPackage module))) ∨
      (contract = .undeclared contract.qualifiedName ∧
        (w.LooksIn o (g.source contract).qualifiedModule ↔
          (dottedParts qualname).length = if w.isPackage module then 2 else 1))) := by
  refine ⟨looksIn_source_iff hknown g, fun hname => ?_⟩
  have hplaces := looksIn_iff_packageName hknown hname g
  obtain ⟨b, hb, -, rfl⟩ := exists_binding_of_mem_requestedFactories hrequest
  have hscanned : scanned.WellNamed := wellNamed_of_scan hscope helements hscan
  have hdotted : IsDotted (module ++ "." ++ qualname) :=
    hname ▸ (isDotted_of_mem_acceptedBindings hscanned markers b hb).1
  rcases contract_of_mem_acceptedBindings hscope helements hscan hb with hfound | hundeclared
  · refine .inl ⟨hfound, fun hmodule => ?_⟩
    rw [hplaces, packageName_eq_iff_of_module (IsDotted.append_iff.mp hdotted).1 hmodule]
  · refine .inr ⟨hundeclared, ?_⟩
    have hundeclared' : b.contract = .undeclared (module ++ "." ++ qualname) :=
      hname ▸ hundeclared
    rw [hplaces, hundeclared', packageName_undeclared_eq_iff hdotted]

end

/-! ### A contract that no source declares -/

/-- A provider of a contract from elsewhere, which asks for a factory. -/
def requestingSource : String := "from g import C\n@p(C,generate_factory=True)\nclass I(C):0\n"

def requestingTree : FileTree :=
  ⟨[], [(["q"], .directory), (["q", "m.py"], .file (Text.utf8Bytes requestingSource.toList))]⟩

def requestingModel : StaticModel where
  roots := [⟨.none, ["q"]⟩]
  ignoreDirs := []
  encoding := "utf-8"

def requestingScan : StaticModel × Reports × Except ScanFault Unit :=
  requestingModel.scan requestingTree {}

/-- A world with the contract, whose module is a package or a plain module. -/
def requestedWorld (isPackage : Bool) : World where
  files := requestingTree
  modules := [("g", {
    name := "g", searchPath := if isPackage then some [⟨.none, ["l", "g"]⟩] else none
    names := [("C", .type 0)] })]
  classes := #[{
    name := "C", qualname := "C", module := "g", bases := [], order := [0], metaclass := .plain
    layout := "object" }]

theorem knownAs_requestedWorld (isPackage : Bool) :
    (requestedWorld isPackage).KnownAs (.type 0) "g" "C" := by
  cases isPackage
  · exact ⟨by decide, by decide, by decide⟩
  · exact ⟨by decide, by decide, by decide⟩

/-- The scan ends well, and one factory is asked for. -/
theorem requestingScan_requests : requestingScan.2.2.isOk = true ∧
    (requestedFactories (acceptedBindings requestingScan.1 ["p"])).map (·.qualifiedName) =
      ["g.C"] ∧
    requestingScan.1.found.has "g.C" = false := by
  decide +kernel

theorem requestingScan_eq : requestingModel.scan requestingTree {} =
    (requestingScan.1, requestingScan.2.1, .ok ()) :=
  StaticModel.eq_of_isOk requestingScan_requests.1

theorem undeclared_mem_requests : .undeclared "g.C" ∈
    requestedFactories (acceptedBindings requestingScan.1 ["p"]) := by
  obtain ⟨-, hnames, hfound⟩ := requestingScan_requests
  have hmem : "g.C" ∈ (requestedFactories (acceptedBindings requestingScan.1 ["p"])).map
      (·.qualifiedName) := by
    rw [hnames]
    exact List.mem_singleton.mpr rfl
  obtain ⟨contract, hrequest, hname⟩ := List.mem_map.mp hmem
  obtain ⟨b, hb, -, rfl⟩ := exists_binding_of_mem_requestedFactories hrequest
  have hkey : b.key = "g.C" := hname
  rcases StaticModel.contract_of_mem_acceptedBindings rfl rfl requestingScan_eq hb with
    hdeclared | hundeclared
  · rw [hkey] at hdeclared
    rw [Table.has, hdeclared] at hfound
    cases hfound
  · rw [hkey] at hundeclared
    exact hundeclared ▸ hrequest

/-- The factory of a contract at the top of a plain module is looked for where it is
generated. -/
theorem found_where_generated_plain :
    .undeclared "g.C" ∈ requestedFactories (acceptedBindings requestingScan.1 ["p"]) ∧
      (requestedWorld false).LooksIn (.type 0)
        ((⟨"g", ""⟩ : Generator).source (.undeclared "g.C")).qualifiedModule := by
  refine ⟨undeclared_mem_requests, ?_⟩
  obtain ⟨-, hplaces⟩ := found_where_generated rfl rfl requestingScan_eq undeclared_mem_requests
    (knownAs_requestedWorld false) ⟨"g", ""⟩
  rcases hplaces (by decide) with ⟨hfound, -⟩ | ⟨-, hplaces⟩
  · -- The sources do not declare it.
    have hdeclared : requestingScan.1.found.has "g.C" = true := Option.isSome_of_eq_some hfound
    rw [requestingScan_requests.2.2] at hdeclared
    cases hdeclared
  · exact hplaces.mpr (by decide)

/-- The factory of a contract that stands in a package is not generated in the package, where
it is looked for. -/
theorem generated_beside_package :
    ¬ ∀ (model scanned : StaticModel) (tree : FileTree) (reports reports' : Reports)
      (markers : List String) (contract : Element) (w : World) (o : Object)
      (module qualname : String) (g : Generator),
      model.scope = {} → model.elements = none →
      model.scan tree reports = (scanned, reports', .ok ()) →
      contract ∈ requestedFactories (acceptedBindings scanned markers) →
      w.KnownAs o module qualname → contract.qualifiedName = module ++ "." ++ qualname →
      w.LooksIn o (g.source contract).qualifiedModule := by
  intro h
  have hname : (Element.undeclared "g.C").qualifiedName = "g" ++ "." ++ "C" := by decide
  have hlooks := h _ _ _ _ _ _ _ _ _ _ _ ⟨"g", ""⟩ rfl rfl requestingScan_eq
    undeclared_mem_requests (knownAs_requestedWorld true) hname
  rw [looksIn_iff_packageName (knownAs_requestedWorld true) hname] at hlooks
  exact absurd hlooks (by decide)

end ProviderRegistry
