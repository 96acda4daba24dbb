import ProviderRegistry.Proofs.Declarations
import ProviderRegistry.Proofs.Resolving

/-!
# What markers refer to

The arguments of a marker are the constants and the classes that the arguments of its
decorator stand for (`StaticModel.exists_argument_of_mem_found`). So the contract of a
provider that is accepted is a class of the sources, or one that no source declares, which
is known by its qualified name only (`StaticModel.contract_of_mem_acceptedBindings`).
-/

namespace ProviderRegistry

/-- A class that nothing declares has the name that it is referred to by. -/
theorem qualifiedName_undeclared {name : String} (h : IsDotted name) :
    (Element.undeclared name).qualifiedName = name :=
  qualify_splitLastDot h

/-- The name of a class that nothing declares stands for the same class, whatever name it was
referred to by. -/
theorem undeclared_qualifiedName (name : String) :
    Element.undeclared (Element.undeclared name).qualifiedName = .undeclared name := by
  rw [Element.undeclared, Element.undeclared, Element.qualifiedName,
    splitLastDot_qualify _ (dottedParts_splitLastDot_snd name)]

namespace Symbols

open Syntax

namespace StaticModel

/-! ## Decorators -/

/-- The text that an expression is, parentheses aside. -/
def writtenText? (e : Expr) : Option String :=
  match writtenLiteral? e with
  | some (.str text) => some text
  | _ => none

/-- The name of the marker that a decorator is. -/
def markerName? (decorator : Expr) : Option String :=
  match decorator.stripped with
  | .call function _ _ => function.dotted?
  | e => e.dotted?

/-- The arguments of the marker that a decorator is, as far as they count. -/
def markerArguments (decorator : Expr) : List Expr :=
  match decorator.stripped with
  | .call _ args named => args.head?.toList ++ named.map (·.2)
  | _ => []

variable {scope : Scope} {elements : Table String Element} {m : SourceModule} {name : String}
  {e : Expr}

/-- What a marker says comes from the arguments of its decorator. -/
theorem exists_argument_of_annotation? {decorator : Expr} {a : Annotation}
    (h : annotation? scope elements m decorator = some a) {key : String} {value : MarkerValue}
    (hvalue : (key, value) ∈ a.arguments) :
    ∃ e ∈ markerArguments decorator, argument? scope elements m e = some value := by
  rw [annotation?] at h
  rw [markerArguments]
  cases hstripped : decorator.stripped with
  | call function args named =>
    simp only [hstripped] at h ⊢
    obtain ⟨written, -, rfl⟩ := Option.map_eq_some_iff.mp h
    -- By induction on the named arguments: each value in the table is that of an argument.
    refine List.foldlRecOn (motive := fun table : Table String MarkerValue =>
      ∀ entry ∈ table, ∃ e ∈ args.head?.toList ++ named.map (·.2),
        argument? scope elements m e = some entry.2) _ _ ?_ ?_ _ hvalue
    · intro entry hentry
      obtain ⟨v, hv, rfl⟩ := Option.map_eq_some_iff.mp (Option.mem_toList.mp hentry)
      obtain ⟨e, he, hv⟩ := Option.bind_eq_some_iff.mp hv
      exact ⟨e, List.mem_append_left _ (Option.mem_toList.mpr he), hv⟩
    · rintro table htable ⟨key, e⟩ he
      dsimp only
      split
      next key v hv =>
        intro entry hentry
        rcases Table.mem_set hentry with rfl | hentry
        · exact ⟨e, List.mem_append_right _ (List.mem_map.mpr ⟨_, he, rfl⟩), hv⟩
        · exact htable entry hentry
      next => exact htable
  | _ =>
    simp only [hstripped] at h
    obtain ⟨written, -, rfl⟩ := Option.map_eq_some_iff.mp h
    cases hvalue

theorem isDotted_of_writtenName? {e : Expr} {written : String} (h : writtenName? e = some written) :
    IsDotted written := by
  rw [writtenName?] at h
  split at h
  next id _ => exact Option.some.inj h ▸ isDotted_identifier id
  next => exact isDotted_of_dotted? h
  next => cases h

theorem exists_mem_of_lookUp {name : String} {element : Element}
    (h : lookUp scope elements name = some element) : ∃ key, (key, element) ∈ elements := by
  rw [lookUp] at h
  cases hlookup : elements.lookup name with
  | none =>
    rw [hlookup] at h
    exact ⟨_, Table.mem_of_lookup h⟩
  | some found =>
    rw [hlookup] at h
    exact ⟨_, Option.some.inj h ▸ Table.mem_of_lookup hlookup⟩

/-- A class that an argument stands for is one of the sources, or one that no source
declares. -/
theorem type_of_argument? (hkeyed : scope.classes.Keyed Declared.qualifiedName)
    (hall : AllDescribe scope elements) {contract : Element}
    (h : argument? scope elements m e = some (.type contract)) :
    (∃ d, (contract.qualifiedName, d) ∈ scope.classes) ∨
      ∃ written, writtenName? e = some written ∧
        contract = .undeclared (scope.resolve m written) := by
  rw [argument?_eq] at h
  cases hname : writtenName? e with
  | none =>
    rw [hname] at h
    obtain ⟨l, -, hl⟩ := Option.map_eq_some_iff.mp h
    cases hl
  | some written =>
    rw [hname] at h
    obtain rfl := MarkerValue.type.inj (Option.some.inj h)
    rw [refer]
    cases hlookup : lookUp scope elements (scope.resolve m written) with
    | none => exact .inr ⟨written, rfl, rfl⟩
    | some element =>
      obtain ⟨key, hmem⟩ := exists_mem_of_lookUp hlookup
      obtain ⟨d, hd, hdescribes⟩ := hall _ hmem
      have hkey : key = element.qualifiedName := by
        rw [Element.qualifiedName, hdescribes.module, hdescribes.qualname]
        exact hkeyed.key _ hd
      exact .inl ⟨d, hkey ▸ hd⟩

theorem literal_of_argument? {l : Literal} (h : argument? scope elements m e = some (.literal l)) :
    writtenLiteral? e = some l := by
  rw [argument?_eq] at h
  cases hname : writtenName? e with
  | some written =>
    rw [hname] at h
    cases h
  | none =>
    rw [hname] at h
    obtain ⟨l', hl, heq⟩ := Option.map_eq_some_iff.mp h
    rw [hl, MarkerValue.literal.inj heq]

/-! ## Markers of what is found -/

variable {model scanned : StaticModel} {tree : FileTree} {reports reports' : Reports}

section

variable (hscope : model.scope = {}) (helements : model.elements = none)
  (h : model.scan tree reports = (scanned, reports', .ok ()))

include hscope helements h

/-- Elements are found under their names. -/
theorem keyed_found : scanned.found.Keyed Element.qualifiedName := by
  have hgrown := grown_of_scan hscope helements h
  obtain ⟨middle, -, rfl⟩ := of_scan_eq_ok helements h
  exact keyed_elementsOf hgrown.classes

/-- What a marker of an element says is what an argument of a decorator of its class stands
for, when the markers of the class are read. -/
theorem exists_argument_of_mem_found {entry : String × Element} (hmem : entry ∈ scanned.found)
    {a : Annotation} (ha : a ∈ entry.2.annotations) {argument : String × MarkerValue}
    (hargument : argument ∈ a.arguments) :
    ∃ name d before e, (name, d) ∈ scanned.scope.classes ∧ AllDescribe scanned.scope before ∧
      e ∈ d.declaration.decorators.flatMap markerArguments ∧
      argument? scanned.scope before d.module e = some argument.2 := by
  obtain ⟨d, hd, -⟩ := of_mem_found helements h entry hmem
  obtain ⟨element, before, hlookup, -, hall, hannotations⟩ := exists_element hscope helements h hd
  obtain rfl : element = entry.2 := Option.some.inj (hlookup.symm.trans
    ((Table.lookup_eq_some_iff (keyed_found hscope helements h).nodup).mpr hmem))
  rw [hannotations] at ha
  obtain ⟨decorator, hdecorator, ha⟩ := List.mem_filterMap.mp ha
  obtain ⟨e, he, hvalue⟩ := exists_argument_of_annotation? ha hargument
  exact ⟨entry.1, d, before, e, hd, hall, List.mem_flatMap.mpr ⟨decorator, hdecorator, he⟩, hvalue⟩

open Registry Resolution in
/-- **The contract of a provider** is a class of the sources, or known by its name only. -/
theorem contract_of_mem_acceptedBindings {markers : List String} {b : Binding}
    (hb : b ∈ acceptedBindings scanned markers) :
    scanned.found.lookup b.key = some b.contract ∨ b.contract = .undeclared b.key := by
  have hkeyed := keyed_found hscope helements h
  -- What a name leads to in the model is a class of the sources, which has its own name.
  have hfound {name : String} {contract : Element}
      (hcontract : scanned.element? name = some contract) :
      scanned.found.lookup contract.qualifiedName = some contract := by
    obtain ⟨key, hmem⟩ := exists_mem_of_lookUp hcontract
    exact (Table.lookup_eq_some_iff hkeyed.nodup).mpr (hkeyed.key _ hmem ▸ hmem)
  obtain ⟨hmarked, hverdict⟩ := of_mem_acceptedBindings hb
  obtain ⟨entry, hentry, heq⟩ := List.mem_map.mp (List.mem_filter.mp hmarked).1
  have hcontract := (of_verdict_eq_ok _ hverdict).2.1
  rw [contractIn?] at hcontract
  split at hcontract
  next name hvalue =>
    have hreference := Option.some.inj hcontract
    rw [reference] at hreference
    rw [Binding.key, ← hreference]
    cases hlookup : scanned.element? name with
    | some contract => exact .inl (hfound hlookup)
    | none => exact .inr (undeclared_qualifiedName name).symm
  next contract hvalue =>
    obtain ⟨a, ha, hvalue⟩ := Option.bind_eq_some_iff.mp hvalue
    rw [← heq] at ha
    obtain ⟨name, d, before, e, hd, hall, -, hargument⟩ :=
      exists_argument_of_mem_found hscope helements h hentry (List.mem_of_find?_eq_some ha)
        (Table.mem_of_lookup hvalue)
    have hgetD := Option.some.inj hcontract
    rw [Binding.key, ← hgetD]
    cases hlookup : scanned.element? contract.qualifiedName with
    | some declared => exact .inl (hfound hlookup)
    | none =>
      rcases type_of_argument? (grown_of_scan hscope helements h).classes hall hargument with
        ⟨declared, hdeclared⟩ | ⟨written, -, rfl⟩
      · -- A class that has been read has an element.
        obtain ⟨element, -, hfoundHere, -⟩ := exists_element hscope helements h hdeclared
        rw [element?, lookUp, hfoundHere] at hlookup
        cases hlookup
      · exact .inr (undeclared_qualifiedName _).symm
  next => cases hcontract

end

end StaticModel

end Symbols

end ProviderRegistry
