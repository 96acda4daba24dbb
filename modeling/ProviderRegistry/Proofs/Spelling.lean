import ProviderRegistry.Proofs.Decorating
import ProviderRegistry.Proofs.Routes

/-!
# Contracts as classes and as texts

The marker of a class names its contract by the class itself or by its qualified name as a text. A
class is followed through the imports of modules to where it is declared, and what it is called
there is its name; a text leads to a class in the same way, but where it leads to none, it stays
as it is written (`Scope.known`). So the two forms name the same contract if there is a class at
the end of the imports, or if no import has been followed at all. If there is none and some import
has been followed, then the contract of a provider that is accepted depends on the form
(`StaticModel.same_contract_iff`), as when a class outside of the sources is exported again by one
of the sources (`reexported_by_class_only`).
-/

namespace ProviderRegistry

open Symbols Registry Resolution Syntax

namespace Symbols

namespace Scope

variable {scope scope' : Scope} {name : String}

/-! ## Names of contracts -/

/-- The name of the class that a name leads to; a name that leads to none stays as it is. -/
def known (scope : Scope) (name : String) : String :=
  if scope.declares (scope.canonical name) then scope.canonical name else name

theorem canonical_of_declares (h : scope.declares name = true) : scope.canonical name = name :=
  canonicalWithin_of_not_hop (not_hop_of_declares h) maxHops

theorem known_of_declares (h : scope.declares (scope.canonical name) = true) :
    scope.known name = scope.canonical name := if_pos h

theorem known_of_not_declares (h : scope.declares (scope.canonical name) = false) :
    scope.known name = name := if_neg (by rw [h]; exact Bool.false_ne_true)

/-- **When following imports first makes no difference.** -/
theorem known_canonical_eq_iff : scope.known (scope.canonical name) = scope.known name ↔
    scope.declares (scope.canonical name) = true ∨ scope.canonical name = name := by
  constructor
  · intro heq
    by_contra! hneither
    have hundeclared := Bool.eq_false_iff.mpr hneither.1
    rw [known_of_not_declares hundeclared] at heq
    cases hdeclares : scope.declares (scope.canonical (scope.canonical name)) with
    | false =>
      rw [known_of_not_declares hdeclares] at heq
      exact hneither.2 heq
    | true =>
      -- More imports have been followed, and they end at the class with the name itself.
      rw [known_of_declares hdeclares] at heq
      rw [heq] at hdeclares
      exact hneither.2 (canonical_of_declares hdeclares)
  · rintro (hdeclares | heq)
    · rw [known, canonical_of_declares hdeclares, if_pos hdeclares, known_of_declares hdeclares]
    · rw [heq]

theorem Resembles.known_eq (h : scope.Resembles scope') (hname : scope.ComesUp name) :
    scope'.known name = scope.known name := by
  have hcanonical : scope'.canonical name = scope.canonical name :=
    h.canonicalWithin_eq maxHops hname
  rw [known, known, hcanonical, h.declares_eq]

end Scope

/-! ## Imported names -/

/-- A module binds a name by an import from another module at its top, and by nothing else. -/
structure SourceModule.Imports (m : SourceModule) (statements : List Stmt) (bound target : String) :
    Prop where
  imported : ∃ module names level, Stmt.importFrom module (some names) level ∈ statements ∧
    ∃ a ∈ names, (a.asName.getD a.name).text = bound ∧
      target = qualify (importBase (packageOf m.name m.isPackage) (module.map (·.text)) level)
        a.name.text
  only : ∀ binding ∈ (breadthFirst statements).flatMap (importsOf (packageOf m.name m.isPackage)),
    binding.1 = bound → binding.2 = target
  notClass : bound ∉ m.topLevel

namespace SourceModule.Imports

variable {m : SourceModule} {statements : List Stmt} {bound target : String}
  (h : m.Imports statements bound target)

include h

theorem isIdentifier : Text.isIdentifier bound.toList = true := by
  obtain ⟨_, _, _, -, a, -, rfl, -⟩ := h.imported
  exact (a.asName.getD a.name).isIdentifier

theorem lookup_imports (hm : m = .ofStatements m.name m.path m.isPackage statements) :
    m.imports.lookup bound = some target := by
  rw [hm, SourceModule.lookup_imports]
  set bindings := (breadthFirst statements).flatMap (importsOf (packageOf m.name m.isPackage))
    with hbindings
  have hmem : (bound, target) ∈ bindings := by
    obtain ⟨module, names, level, hstatement, a, ha, rfl, rfl⟩ := h.imported
    refine List.mem_flatMap.mpr ⟨.statement (.importFrom module (some names) level), ?_, ?_⟩
    · rw [breadthFirst_eq]
      exact List.mem_append_left _ (List.mem_map_of_mem hstatement)
    · exact List.mem_map_of_mem ha
  cases hlast : Table.last? bindings bound with
  | none => exact absurd (List.mem_map_of_mem hmem) (Table.last?_eq_none_iff.mp hlast)
  | some found =>
    have hfound := List.mem_reverse.mp (Table.mem_of_lookup hlast)
    exact congrArg some (h.only _ hfound rfl)

/-- The name refers to what its target leads to. -/
theorem spelledOut_eq (hm : m = .ofStatements m.name m.path m.isPackage statements) :
    Scope.headMeaning? m (Scope.splitHead bound).1 = some target ∧
      Scope.spelledOut m bound = target := by
  have hclass : m.topLevel.contains bound = false := by simp [h.notClass]
  have hsplit : Scope.splitHead bound = (bound, []) := by
    rw [Scope.splitHead, dottedParts_of_isIdentifier h.isIdentifier]
  have hmeaning : Scope.headMeaning? m bound = some target := by
    rw [Scope.headMeaning?, hclass, h.lookup_imports hm]
    rfl
  rw [Scope.spelledOut, hsplit, hmeaning]
  exact ⟨rfl, String.intercalate_singleton ..⟩

end SourceModule.Imports

namespace StaticModel

open Scope

/-- The marker of a class has its value from an argument. -/
def MarkedWith (scope : Scope) (markers : List String) (d : Declared) (argument : Expr) : Prop :=
  ∃ decorator, markerOf? scope markers d = some decorator ∧ valueOf? decorator = some argument

/-- A class is accepted as a provider of the contract with a name. -/
def AcceptedFor (scanned : StaticModel) (markers : List String) (name key : String) : Prop :=
  ∃ b ∈ acceptedBindings scanned markers, b.name = name ∧ b.key = key

theorem MarkedWith.mem_writtenNames {scope : Scope} {markers : List String} {d : Declared}
    {argument : Expr} {written : String} (h : MarkedWith scope markers d argument)
    (hwritten : writtenName? argument = some written) : written ∈ d.declaration.writtenNames := by
  obtain ⟨decorator, hmarker, hvalue⟩ := h
  have hargument : argument ∈ markerArguments decorator := by
    rw [valueOf?] at hvalue
    rw [markerArguments]
    cases hstripped : decorator.stripped with
    | call function args named =>
      simp only [hstripped] at hvalue ⊢
      have hmem := (List.mem_filter.mp (List.mem_of_getLast? hvalue)).1
      refine (List.mem_append.mp hmem).elim (List.mem_append_left _) fun hmem => ?_
      obtain ⟨entry, hentry, rfl⟩ := List.mem_map.mp hmem
      exact List.mem_append_right _ (List.mem_map_of_mem (List.mem_filter.mp hentry).1)
    | _ =>
      simp only [hstripped] at hvalue
      cases hvalue
  refine List.mem_append_right _ (List.mem_filterMap.mpr ⟨argument, ?_, hwritten⟩)
  exact List.mem_flatMap.mpr ⟨decorator, List.mem_of_find?_eq_some hmarker, hargument⟩

section

variable {model scanned : StaticModel} {tree : FileTree} {reports reports' : Reports}
  {name : String} {d : Declared} {e k : Element} {markers : List String} {argument : Expr}
  (hscope : model.scope = {}) (helements : model.elements = none)
  (h : model.scan tree reports = (scanned, reports', .ok ()))

include hscope helements h

/-- A name leads to the class that it is known by, or to none. -/
theorem element?_cases (name : String) :
    (∃ c, scanned.element? name = some c ∧ c.qualifiedName = scanned.scope.known name) ∨
      scanned.element? name = none ∧ scanned.scope.known name = name := by
  have hfound {key : String} (hkey : scanned.scope.declares key = true) :
      ∃ c, scanned.found.lookup key = some c ∧ c.qualifiedName = key := by
    obtain ⟨d, hd⟩ := Option.isSome_iff_exists.mp hkey
    obtain ⟨c, hc, -, hname⟩ := exists_describes hscope helements h (Table.mem_of_lookup hd)
    exact ⟨c, hc, hname⟩
  rw [element?, lookUp]
  cases hname : scanned.scope.declares name with
  | true =>
    obtain ⟨c, hc, hkey⟩ := hfound hname
    have hcanonical := canonical_of_declares hname
    rw [hc, known, hcanonical, if_pos hname]
    exact .inl ⟨c, rfl, hkey⟩
  | false =>
    rw [lookup_found_eq_none helements h hname]
    cases hcanonical : scanned.scope.declares (scanned.scope.canonical name) with
    | true =>
      obtain ⟨c, hc, hkey⟩ := hfound hcanonical
      rw [hc, known_of_declares hcanonical]
      exact .inl ⟨c, rfl, hkey⟩
    | false =>
      rw [lookup_found_eq_none helements h hcanonical]
      exact .inr ⟨rfl, known_of_not_declares hcanonical⟩

/-- **The contract of a text.** -/
theorem exists_contract_of_text (hd : (name, d) ∈ scanned.scope.classes)
    (he : scanned.found.lookup name = some e)
    (hmarked : MarkedWith scanned.scope markers d argument) {text : String}
    (htext : writtenText? argument = some text) (hdotted : IsDotted text) :
    ∃ k, contractIn? scanned markers e = some k ∧
      k.qualifiedName = scanned.scope.known text := by
  obtain ⟨decorator, hmarker, hvalue⟩ := hmarked
  obtain ⟨before, -, hstands⟩ := exists_value hscope helements h hd he hmarker hvalue
  obtain ⟨hnoName, hliteral⟩ := of_writtenText? htext
  refine ⟨scanned.reference text, ?_, ?_⟩
  · rw [contractIn?, hstands, argument?_eq, hnoName, hliteral]
    rfl
  · rw [reference]
    rcases element?_cases hscope helements h text with ⟨c, hc, hkey⟩ | ⟨hnone, hkey⟩
    · rw [hc, Option.getD_some, hkey]
    · rw [hnone, Option.getD_none, hkey, qualifiedName_undeclared hdotted]

/-- **The contract of a class.** -/
theorem exists_contract_of_name (hd : (name, d) ∈ scanned.scope.classes)
    (he : scanned.found.lookup name = some e)
    (hmarked : MarkedWith scanned.scope markers d argument) {written : String}
    (hwritten : writtenName? argument = some written) :
    ∃ k, contractIn? scanned markers e = some k ∧
      k.qualifiedName = scanned.scope.known (scanned.scope.resolve d.module written) := by
  obtain ⟨decorator, hmarker, hvalue⟩ := hmarked
  obtain ⟨before, hall, hstands⟩ := exists_value hscope helements h hd he hmarker hvalue
  have hnamed := (wellNamed_of_scan hscope helements h).scope
  set key := scanned.scope.resolve d.module written
  have hdotted : IsDotted key := isDotted_resolve hnamed (hnamed.classes _ hd).module
    (isDotted_of_writtenName? hwritten)
  set meant := refer scanned.scope before key with hmeant
  refine ⟨(scanned.element? meant.qualifiedName).getD meant, ?_, ?_⟩
  · rw [contractIn?, hstands, argument?_eq, hwritten]
    rfl
  -- The class is known when the marker is read, or its name stands for it until then.
  have hname : meant.qualifiedName = key ∨
      meant.qualifiedName = scanned.scope.canonical key ∧
        scanned.scope.declares (scanned.scope.canonical key) = true := by
    rw [hmeant, refer, lookUp]
    cases hhere : before.lookup key with
    | some c => exact .inl (of_lookup_of_allDescribe hscope helements h hall hhere).2
    | none =>
      cases hthere : before.lookup (scanned.scope.canonical key) with
      | some c => exact .inr (of_lookup_of_allDescribe hscope helements h hall hthere).symm
      | none => exact .inl (qualifiedName_undeclared hdotted)
  have hknown : scanned.scope.known meant.qualifiedName = scanned.scope.known key := by
    rcases hname with heq | ⟨heq, hdeclares⟩
    · rw [heq]
    · rw [heq, known_canonical_eq_iff]
      exact .inl hdeclares
  rcases element?_cases hscope helements h meant.qualifiedName with ⟨c, hc, hkey⟩ | ⟨hnone, hkey⟩
  · rw [hc, Option.getD_some, hkey, hknown]
  · rw [hnone, Option.getD_none, ← hkey, hknown]

/-- A class is accepted as a provider of the contract that its marker names, if it is concrete and
inherits from it. -/
theorem acceptedFor_iff (he : scanned.found.lookup name = some e)
    (hcontract : contractIn? scanned markers e = some k) {key : String} :
    scanned.AcceptedFor markers name key ↔
      isConcrete e = true ∧ scanned.inherits e k = true ∧ key = k.qualifiedName := by
  have hkeyed := keyed_found hscope helements h
  constructor
  · rintro ⟨b, hb, hname, hkey⟩
    obtain ⟨hmarked, hverdict⟩ := of_mem_acceptedBindings hb
    obtain ⟨entry, hentry, heq⟩ := List.mem_map.mp (List.mem_filter.mp hmarked).1
    -- The class of the binding has the name, so that it is this one.
    have himplementation : b.implementation = e := by
      have hlookup := (Table.lookup_eq_some_iff hkeyed.nodup).mpr hentry
      rw [hkeyed.key entry hentry, heq] at hlookup
      rw [Binding.name] at hname
      rw [hname, he] at hlookup
      exact (Option.some.inj hlookup).symm
    rw [himplementation] at hverdict
    obtain ⟨-, hcontract', hinherits⟩ := of_verdict_eq_ok markers hverdict
    obtain rfl : k = b.contract := Option.some.inj (hcontract.symm.trans hcontract')
    refine ⟨?_, hinherits, hkey.symm⟩
    by_contra hconcrete
    rw [verdict, Bool.eq_false_iff.mpr hconcrete] at hverdict
    cases hverdict
  · rintro ⟨hconcrete, hinherits, rfl⟩
    exact ⟨_, mem_acceptedBindings he hconcrete hcontract hinherits,
      (hkeyed.of_lookup he).symm, rfl⟩

end

variable {model scanned scanned' : StaticModel} {tree tree' : FileTree}
  {reports reports' : Reports} {name bound target : String} {d : Declared} {e l k k' : Element}
  {markers : List String} {statements : List Stmt}

/-- A class with one contract in a tree and one in another, which differs in decorators only, is
accepted as a provider of the same in both, if these have one name, or if it is accepted in
neither. -/
theorem Redecorated.same_acceptedFor_iff (h : scanned.Redecorated scanned')
    (hscope : model.scope = {}) (helements : model.elements = none)
    (hscan : model.scan tree reports = (scanned, reports', .ok ()))
    (hscan' : model.scan tree' reports = (scanned', reports', .ok ()))
    (he : scanned.found.lookup name = some e) (hl : scanned'.found.lookup name = some l)
    (hk : contractIn? scanned markers e = some k)
    (hk' : contractIn? scanned' markers l = some k') :
    (∀ key, scanned.AcceptedFor markers name key ↔ scanned'.AcceptedFor markers name key) ↔
      k.qualifiedName = k'.qualifiedName ∨
        ∀ key, ¬ scanned.AcceptedFor markers name key ∧ ¬ scanned'.AcceptedFor markers name key := by
  have haccepted (key : String) : scanned.AcceptedFor markers name key ↔ _ :=
    acceptedFor_iff hscope helements hscan he hk
  have haccepted' (key : String) : scanned'.AcceptedFor markers name key ↔ _ :=
    acceptedFor_iff hscope helements hscan' hl hk'
  have hresembles : e.Resembles l := by
    obtain ⟨l', hl', hresembles⟩ := h.found.of_lookup he
    obtain rfl := Option.some.inj (hl'.symm.trans hl)
    exact hresembles
  constructor
  · intro hsame
    by_contra! hneither
    obtain ⟨hne, key, hsome⟩ := hneither
    have hboth : scanned.AcceptedFor markers name key ∧ scanned'.AcceptedFor markers name key := by
      by_cases h : scanned.AcceptedFor markers name key
      · exact ⟨h, (hsame key).mp h⟩
      · exact ⟨(hsame key).mpr (hsome h), hsome h⟩
    exact hne (((haccepted key).mp hboth.1).2.2.symm.trans ((haccepted' key).mp hboth.2).2.2)
  · rintro (heq | hnone) key
    · have hsettled := settled_of_scan hscope helements hscan
      have hconcrete : isConcrete l = isConcrete e := by
        rw [isConcrete, isConcrete, hresembles.kind, hresembles.abstract]
      have hinherits : scanned'.inherits l k' = scanned.inherits e k :=
        h.inherits_eq hsettled hresembles (hsettled.supertypes _ (Table.mem_of_lookup he)) heq.symm
      rw [haccepted, haccepted', hconcrete, hinherits, heq]
    · exact iff_of_false (hnone key).1 (hnone key).2

/-- **The two forms of a marker.** A class of a module that imports a contract under a name is
marked with this name, and in another tree, which is the same up to decorators, with the qualified
name that the import spells as a text. The class is accepted as a provider of the same contract in
both, or of none in either, exactly if the imports that follow end at a class, if none follows, or
if the class is of no contract in any case. -/
theorem same_contract_iff (hscope : model.scope = {}) (helements : model.elements = none)
    (hredecorates : model.RedecoratesTree tree tree')
    (hscan : model.scan tree reports = (scanned, reports', .ok ()))
    (hd : (name, d) ∈ scanned.scope.classes)
    (hread : readModule tree d.module.path model.encoding = .ok (.ok statements))
    (himports : d.module.Imports statements bound target) :
    ∃ scanned' d', model.scan tree' reports = (scanned', reports', .ok ()) ∧
      (name, d') ∈ scanned'.scope.classes ∧
      ∀ markers named text, MarkedWith scanned.scope markers d named →
        writtenName? named = some bound → MarkedWith scanned'.scope markers d' text →
        writtenText? text = some target →
        ((∀ key, scanned.AcceptedFor markers name key ↔ scanned'.AcceptedFor markers name key) ↔
          scanned.scope.declares (scanned.scope.canonical target) = true ∨
          scanned.scope.canonical target = target ∨
          ∀ key, ¬ scanned.AcceptedFor markers name key ∧
            ¬ scanned'.AcceptedFor markers name key) := by
  obtain ⟨scanned', hscan', hredecorated, hclasses⟩ :=
    hredecorates.exists_scan hscope helements hscan
  have hgrown := grown_of_scan hscope helements hscan
  obtain ⟨d', hd', -⟩ :=
    hclasses.of_lookup ((Table.lookup_eq_some_iff hgrown.classes.nodup).mpr hd)
  refine ⟨scanned', d', hscan', Table.mem_of_lookup hd', ?_⟩
  intro markers named text hnamed hwritten htext hwrittenText
  -- What the name refers to, and that the other tree knows as much of it.
  obtain ⟨_, _, hreadAt⟩ := hgrown.exists_readAt hd hread
  obtain ⟨hmeaning, hspelled⟩ := himports.spelledOut_eq hreadAt.eq
  have hcomesUp : scanned.scope.ComesUp target :=
    hspelled ▸ .written hd (hnamed.mem_writtenNames hwritten)
  have hdotted : IsDotted target :=
    ((wellNamed_of_scan hscope helements hscan).scope.classes _ hd).module.imports.of_lookup
      (himports.lookup_imports hreadAt.eq)
  -- The class in both trees, and its contracts.
  obtain ⟨e, -, he, -⟩ := exists_element hscope helements hscan hd
  obtain ⟨l, hl, -⟩ := hredecorated.found.of_lookup he
  obtain ⟨k, hk, hkey⟩ := exists_contract_of_name hscope helements hscan hd he hnamed hwritten
  obtain ⟨k', hk', hkey'⟩ := exists_contract_of_text hscope helements hscan'
    (Table.mem_of_lookup hd') hl htext hwrittenText hdotted
  rw [Scope.spelledOut_of_some hmeaning, hspelled] at hkey
  rw [hredecorated.scope.known_eq hcomesUp] at hkey'
  rw [hredecorated.same_acceptedFor_iff hscope helements hscan hscan' he hl hk hk', ← or_assoc,
    ← known_canonical_eq_iff, hkey, hkey']

/-! ### A class that is imported by two names -/

/-- A class that derives from what another module provides, and is marked with an argument. -/
def spelledSource (argument : String) : String :=
  "from p import B as d\n@k(" ++ argument ++ ")\nclass I(d):0\n"

/-- The module with the class, the other module, which imports what it provides, and a third one,
with some text. -/
def spelledTree (argument third : String) : FileTree :=
  ⟨[], [(["x"], .directory),
    (["x", "m.py"], .file (Text.utf8Bytes (spelledSource argument).toList)),
    (["y"], .directory), (["y", "p.py"], .file (Text.utf8Bytes "from e import B\n".toList)),
    (["z"], .directory), (["z", "e.py"], .file (Text.utf8Bytes third.toList))]⟩

def spelledModel : StaticModel where
  roots := [⟨.none, ["x"]⟩, ⟨.none, ["y"]⟩, ⟨.none, ["z"]⟩]
  ignoreDirs := []
  encoding := "utf-8"

def spelledScan (argument third : String) : StaticModel × Reports × Except ScanFault Unit :=
  spelledModel.scan (spelledTree argument third) {}

/-- The providers that are accepted, each with its contract. -/
def spelledProviders (argument third : String) : Option (List (String × String)) :=
  (spelledScan argument third).2.2.toOption.map fun _ =>
    (acceptedBindings (spelledScan argument third).1 ["k"]).map fun b => (b.name, b.key)

/-- **The class is a provider only if its marker names the class**, when no source declares it. -/
theorem reexported_by_class_only :
    spelledProviders "d" "" = some [("m.I", "e.B")] ∧ spelledProviders "'p.B'" "" = some [] := by
  decide +kernel

/-- The statements of the module with the class. -/
def spelledStatements (argument : Expr) : List Stmt := [
  .importFrom (some ⟨⟨"p", by decide⟩, []⟩) (some [⟨⟨"B", by decide⟩, some ⟨"d", by decide⟩⟩]) 0,
  .classDef 3 ⟨"I", by decide⟩ [.name ⟨"d", by decide⟩]
    [.call (.name ⟨"k", by decide⟩) [argument] []] [.expression (.constant (.int 0))]]

theorem parse_spelledName : parseModule? (spelledSource "d").toList =
    some (spelledStatements (.name ⟨"d", by decide⟩)) := by
  have hsource : spelledSource "d" = "from p import B as d\n@k(d)\nclass I(d):0\n" := by
    decide +kernel
  rw [hsource]
  cbv

theorem parse_spelledText : parseModule? (spelledSource "'p.B'").toList =
    some (spelledStatements (.constant (.str "p.B"))) := by
  have hsource : spelledSource "'p.B'" = "from p import B as d\n@k('p.B')\nclass I(d):0\n" := by
    decide +kernel
  rw [hsource]
  cbv

/-- The files that are scanned, and their texts. -/
def SpelledReads (argument third : String) : Prop :=
  ((spelledTree argument third).readText ⟨.none, ["x", "m.py"]⟩ "utf-8").toOption =
      some (spelledSource argument).toList ∧
    ((spelledTree argument third).readText ⟨.none, ["y", "p.py"]⟩ "utf-8").toOption =
      some "from e import B\n".toList ∧
    ((spelledTree argument third).readText ⟨.none, ["z", "e.py"]⟩ "utf-8").toOption =
      some third.toList ∧
    filesBelow (spelledTree argument third) ⟨.none, ["x"]⟩ [] = [["m.py"]] ∧
    filesBelow (spelledTree argument third) ⟨.none, ["y"]⟩ [] = [["p.py"]] ∧
    filesBelow (spelledTree argument third) ⟨.none, ["z"]⟩ [] = [["e.py"]]

instance (argument third : String) : Decidable (SpelledReads argument third) :=
  inferInstanceAs (Decidable (_ ∧ _))

/-- Where the class is found, and what its marker is written with. -/
def SpelledWith (argument third : String) (written : Expr → Option String) (value : String) :
    Prop :=
  let scope := (spelledScan argument third).1.scope
  (spelledScan argument third).2.2.isOk = true ∧ (scope.classes.lookup "m.I").isSome = true ∧
    ∀ entry ∈ scope.classes, entry.1 = "m.I" →
      entry.2.module.name = "m" ∧ entry.2.module.path = ⟨.none, ["x", "m.py"]⟩ ∧
        entry.2.module.isPackage = false ∧ entry.2.module.topLevel = ["I"] ∧
        ((markerOf? scope ["k"] entry.2).bind valueOf?).bind written = some value

instance (argument third : String) (written : Expr → Option String) (value : String) :
    Decidable (SpelledWith argument third written value) := inferInstanceAs (Decidable (_ ∧ _))

theorem exists_markedWith {scope : Scope} {markers : List String} {written : Expr → Option String}
    {value : String} (h : ((markerOf? scope markers d).bind valueOf?).bind written = some value) :
    ∃ argument, MarkedWith scope markers d argument ∧ written argument = some value := by
  obtain ⟨argument, hargument, hwritten⟩ := Option.bind_eq_some_iff.mp h
  obtain ⟨decorator, hmarker, hvalue⟩ := Option.bind_eq_some_iff.mp hargument
  exact ⟨argument, ⟨decorator, hmarker, hvalue⟩, hwritten⟩

theorem imports_spelled {m : SourceModule} {argument : Expr} (hname : m.name = "m")
    (hpackage : m.isPackage = false) (htop : m.topLevel = ["I"]) :
    m.Imports (spelledStatements argument) "d" "p.B" where
  imported := ⟨_, _, _, List.mem_cons_self, _, List.mem_singleton_self _, rfl,
    by rw [hname, hpackage]; decide⟩
  only := by
    have hbindings : (breadthFirst (spelledStatements argument)).flatMap
        (importsOf (SourceModule.packageOf m.name m.isPackage)) = [("d", "p.B")] := by
      rw [hname, hpackage]
      rfl
    intro binding hbinding _
    rw [hbindings, List.mem_singleton] at hbinding
    rw [hbinding]
  notClass := by rw [htop]; decide

theorem redecorates_of_readText {path : Path} {encoding : String} {text : List Char}
    (htext : (tree.readText path encoding).toOption = some text)
    (htext' : (tree'.readText path encoding).toOption = some text) :
    Redecorates (readModule tree path encoding) (readModule tree' path encoding) := by
  have hread : tree'.readText path encoding = tree.readText path encoding := by
    cases h : tree.readText path encoding <;> cases h' : tree'.readText path encoding <;>
      simp_all [Except.toOption]
  rw [readModule, readModule, hread]
  exact .same _

/-- The two forms are two trees that differ in the decorator only. -/
theorem redecoratesTree_spelled {third : String} (hreads : SpelledReads "d" third)
    (hreads' : SpelledReads "'p.B'" third) :
    spelledModel.RedecoratesTree (spelledTree "d" third) (spelledTree "'p.B'" third) where
  alike := ⟨rfl, .cons ⟨rfl, Iff.rfl⟩ (.cons ⟨rfl, nofun, nofun⟩ (.cons ⟨rfl, Iff.rfl⟩
    (.cons ⟨rfl, nofun, nofun⟩ (.cons ⟨rfl, Iff.rfl⟩ (.cons ⟨rfl, nofun, nofun⟩ .nil)))))⟩
  readings := by
    obtain ⟨htext, htextY, htextZ, hx, hy, hz⟩ := hreads
    obtain ⟨htext', htextY', htextZ', -⟩ := hreads'
    have hreadX : Redecorates (readModule (spelledTree "d" third) ⟨.none, ["x", "m.py"]⟩ "utf-8")
        (readModule (spelledTree "'p.B'" third) ⟨.none, ["x", "m.py"]⟩ "utf-8") := by
      rw [readModule_eq_ok htext parse_spelledName, readModule_eq_ok htext' parse_spelledText]
      exact .read (by simp only [spelledStatements, undecoratedAll, Stmt.undecorated])
    have hreadY := redecorates_of_readText htextY htextY'
    have hreadZ := redecorates_of_readText htextZ htextZ'
    intro root hroot components hcomponents
    simp only [spelledModel, List.mem_cons, List.not_mem_nil, or_false] at hroot
    rcases hroot with rfl | rfl | rfl
    · rw [spelledModel, hx, List.mem_singleton] at hcomponents
      rw [hcomponents]
      exact hreadX
    · rw [spelledModel, hy, List.mem_singleton] at hcomponents
      rw [hcomponents]
      exact hreadY
    · rw [spelledModel, hz, List.mem_singleton] at hcomponents
      rw [hcomponents]
      exact hreadZ

/-- The class is a provider of the same contract in both forms, when a source declares it. -/
theorem same_contract_declared :
    spelledProviders "d" "class B:0\n" = some [("m.I", "e.B")] ∧
      ∀ key, (spelledScan "d" "class B:0\n").1.AcceptedFor ["k"] "m.I" key ↔
        (spelledScan "'p.B'" "class B:0\n").1.AcceptedFor ["k"] "m.I" key := by
  have hnamed : SpelledWith "d" "class B:0\n" writtenName? "d" := by decide +kernel
  have htext : SpelledWith "'p.B'" "class B:0\n" writtenText? "p.B" := by decide +kernel
  have hreads : SpelledReads "d" "class B:0\n" := by decide +kernel
  have hdeclares : (spelledScan "d" "class B:0\n").1.scope.declares
      ((spelledScan "d" "class B:0\n").1.scope.canonical "p.B") = true := by decide +kernel
  obtain ⟨d, hlookup⟩ := Option.isSome_iff_exists.mp hnamed.2.1
  have hd := Table.mem_of_lookup hlookup
  obtain ⟨hname, hpath, hpackage, htop, hmarker⟩ := hnamed.2.2 _ hd rfl
  obtain ⟨named, hmarked, hwritten⟩ := exists_markedWith hmarker
  have hread := readModule_eq_ok hreads.1 parse_spelledName
  have hscan : spelledModel.scan (spelledTree "d" "class B:0\n") {} = _ := eq_of_isOk hnamed.1
  obtain ⟨scanned', d', hscan', hd', hsame⟩ := same_contract_iff rfl rfl
    (redecoratesTree_spelled hreads (by decide +kernel)) hscan hd (by rw [hpath]; exact hread)
    (imports_spelled hname hpackage htop)
  obtain rfl : scanned' = (spelledScan "'p.B'" "class B:0\n").1 := (congrArg Prod.fst hscan').symm
  obtain ⟨text, hmarked', hwritten'⟩ := exists_markedWith (htext.2.2 _ hd' rfl).2.2.2.2
  exact ⟨by decide +kernel,
    (hsame _ _ _ hmarked hwritten hmarked' hwritten').mpr (.inl hdeclares)⟩

end StaticModel

end Symbols

end ProviderRegistry
