import ProviderRegistry.Proofs.Rounds
import ProviderRegistry.Proofs.Sources
import ProviderRegistry.Proofs.Views

/-!
# Resolving against sources

Once a static model has scanned its sources, a question to it changes nothing, and what
resolution says of a class is settled by the model alone (`verdict`): a binding, or the
text of the rule that the class breaks.
-/

namespace ProviderRegistry

namespace Symbols

/-! ## Answers of a static model -/

namespace StaticModel

variable (model : StaticModel)

/-- The class with a qualified name, or what stands for it. -/
def reference (name : String) : Element := (model.element? name).getD (.undeclared name)

/-- The classes that carry one of some markers, in the order of their discovery. -/
def marked (markers : List String) : List Element :=
  (model.found.map (·.2)).filter fun e => (e.annotation? markers).isSome

/-- How many steps a walk from a class can have. -/
def walkSteps (element : Element) : Nat :=
  element.supertypes.length + (model.found.flatMap fun (_, e) => e.supertypes).length + 1

/-- Whether a class is a contract or inherits from it. -/
def inherits (element contract : Element) : Bool :=
  Id.run (walkUp model.element? contract.qualifiedName (model.walkSteps element) [element] [])

end StaticModel

/-- A session over a static model that has scanned its sources. -/
structure Scanned (model : StaticModel) (s : Session) : Prop where
  session : s.model = .static model
  scanned : model.elements.isSome = true

namespace Query

variable {model : StaticModel} {s : Session}

/-- A static model scans the files of the world, and keeps what it has found. -/
theorem run_scan_of_static (h : s.model = .static model) :
    scan.run s =
      ((model.scan s.world.files s.reports).2.2.mapError ScanFault.raised,
        { s with
          model := .static (model.scan s.world.files s.reports).1
          reports := (model.scan s.world.files s.reports).2.1 }) := by
  rw [scan, Leaves.run_get_bind, h]
  rfl

section

variable (h : Scanned model s)

include h

theorem run_scan : scan.run s = (.ok (), s) := by
  rw [run_scan_of_static h.session]
  simp only [StaticModel.scan, if_pos h.scanned, ← h.session]
  rfl

theorem run_element? (name : String) : (element? name).run s = (.ok (model.element? name), s) := by
  rw [element?, Leaves.run_bind, run_scan h]
  simp only [Leaves.run_get_bind, h.session]
  rfl

theorem run_isAssignable (element contract : Element) :
    (isAssignable element contract).run s = (.ok (model.inherits element contract), s) := by
  rw [isAssignable, Leaves.run_get_bind, h.session]
  simp only
  have hsteps : supertypeCount s element + 1 = model.walkSteps element := by
    simp only [supertypeCount, h.session, StaticModel.scan, if_pos h.scanned,
      StaticModel.walkSteps]
  rw [run_inherits (run_element? h), hsteps, StaticModel.inherits]

end

end Query

/-- What resolution sees of a static model. -/
def StaticModel.view (model : StaticModel) : View := ⟨model.element?, model.inherits⟩

/-- A static model gives the answers that it has found. -/
theorem Scanned.answers {model : StaticModel} {s : Session} (h : Scanned model s) :
    AnswersAs model.view s where
  element? name reports := Query.run_element? (s := { s with reports }) ⟨h.session, h.scanned⟩ name
  isAssignable element contract reports :=
    Query.run_isAssignable (s := { s with reports }) ⟨h.session, h.scanned⟩ element contract

/-- A scan that ends well has found its elements. -/
theorem StaticModel.isSome_elements_of_scan {model scanned : StaticModel} {tree : FileTree}
    {reports reports' : Reports} (h : model.scan tree reports = (scanned, reports', .ok ())) :
    scanned.elements.isSome = true := by
  rw [StaticModel.scan] at h
  split at h
  next hsome =>
    cases h
    exact hsome
  next =>
    split at h
    next => cases (Prod.mk.inj (Prod.mk.inj h).2).2
    next =>
      cases h
      rfl

/-- Asking a static model for its marked classes makes it scan its sources. -/
theorem Query.of_run_annotated {model : StaticModel} {s s' : Session} (hs : s.model = .static model)
    {markers : List String} {elements : List Element}
    (h : (annotated markers).run s = (.ok elements, s')) :
    ∃ scanned reports, model.scan s.world.files s.reports = (scanned, reports, .ok ()) ∧
      elements = scanned.marked markers ∧
      s' = { s with model := .static scanned, reports } := by
  rw [annotated, Leaves.run_bind, Query.elements, Leaves.run_bind, run_scan_of_static hs] at h
  rcases hscan : model.scan s.world.files s.reports with ⟨scanned, reports, result⟩
  simp only [hscan] at h
  cases result with
  | error fault => cases (Prod.mk.inj h).1
  | ok u =>
    obtain ⟨helements, hsession⟩ := Prod.mk.inj h
    exact ⟨scanned, reports, rfl, (Except.ok.inj helements).symm, hsession.symm⟩

/-! ## Names on the way to a contract -/

namespace StaticModel

variable {model : StaticModel} (h : model.found.All NamedElement)

include h

theorem namedElement_element? {name : String} {e : Element} (he : model.element? name = some e) :
    NamedElement e := by
  rw [element?, lookUp] at he
  cases hlookup : model.found.lookup name with
  | none =>
    rw [hlookup] at he
    exact h.of_lookup he
  | some found =>
    rw [hlookup] at he
    exact Option.some.inj he ▸ h.of_lookup hlookup

/-- Looking through dotted names meets dotted names only. -/
theorem namedElement_lookThrough (target : String) (seen : List String) {names : List String}
    {queue : List Element} (hnames : ∀ name ∈ names, IsDotted name)
    (hqueue : ∀ e ∈ queue, NamedElement e) :
    match Id.run (lookThrough model.element? target names seen queue) with
    | .found => IsDotted target
    | .further _ queue => ∀ e ∈ queue, NamedElement e := by
  induction names generalizing seen queue with
  | nil => exact hqueue
  | cons name rest ih =>
    rw [List.forall_mem_cons] at hnames
    rw [lookThrough]
    by_cases htarget : name = target
    · rw [if_pos htarget]
      exact htarget ▸ hnames.1
    · rw [if_neg htarget]
      by_cases hseen : seen.contains name = true
      · rw [if_pos hseen]
        exact ih seen hnames.2 hqueue
      · rw [if_neg hseen]
        refine ih _ hnames.2 (List.forall_mem_append.mpr ⟨hqueue, fun e he => ?_⟩)
        exact namedElement_element? h (Option.mem_toList.mp he)

theorem isDotted_of_walkUp {target : String} {steps : Nat} {queue : List Element}
    {seen : List String} (hqueue : ∀ e ∈ queue, NamedElement e)
    (hwalk : Id.run (walkUp model.element? target steps queue seen) = true) : IsDotted target := by
  -- By induction on the steps of the walk; the invariant is that all classes in the queue
  -- have dotted names, and supertypes with dotted names.
  induction steps generalizing queue seen with
  | zero => cases hwalk
  | succ steps ih =>
    cases queue with
    | nil => cases hwalk
    | cons current queue =>
      rw [List.forall_mem_cons] at hqueue
      rw [walkUp] at hwalk
      split at hwalk
      next heq => exact heq ▸ hqueue.1.qualifiedName
      next =>
        have hlook := namedElement_lookThrough h target seen hqueue.1.supertypes hqueue.2
        rw [Id.run_bind] at hwalk
        cases hrun : Id.run (lookThrough model.element? target current.supertypes seen queue) with
        | found =>
          rw [hrun] at hlook
          exact hlook
        | further seen queue =>
          rw [hrun] at hlook hwalk
          exact ih hlook hwalk

/-- A contract that a class of the sources inherits from has a dotted name. -/
theorem isDotted_of_inherits {element contract : Element} (he : NamedElement element)
    (hinherits : model.inherits element contract = true) : IsDotted contract.qualifiedName :=
  isDotted_of_walkUp h (List.forall_mem_singleton.mpr he) hinherits

end StaticModel

end Symbols

/-! ## Verdicts -/

namespace Resolution

open Symbols Registry

/-- The contract that the marker of a class names. -/
def contractIn? (model : StaticModel) (markers : List String) (element : Element) :
    Option Element :=
  match (element.annotation? markers).bind (·.value? "value") with
  | some (.literal (.str name)) => some (model.reference name)
  | some (.type contract) => some ((model.element? contract.qualifiedName).getD contract)
  | _ => none

/-- What resolution says of a class: its binding, or the text of the first rule that the
class breaks. -/
def verdict (model : StaticModel) (markers : List String) (element : Element) :
    Except String Binding :=
  if !isConcrete element then .error (element.qualifiedName ++ " must be a concrete class")
  else match contractIn? model markers element with
    | none => .error "Missing required value argument"
    | some contract =>
      if model.inherits element contract then
        .ok ⟨contract, element, requestsFactory markers element⟩
      else .error (notAssignable element contract)

/-- The report of a class that is rejected, which is tied to the class. -/
def rejection? (model : StaticModel) (markers : List String) (element : Element) :
    Option Diagnostic :=
  match verdict model markers element with
  | .ok _ => none
  | .error message => some { message, element }

variable {model : StaticModel} {s : Session} (markers : List String)

/-- Resolving classes gives the bindings of those that break no rule, and reports the
others in the order of their discovery. -/
theorem run_bindingsOf (h : Scanned model s) (elements : List Element) :
    (bindingsOf markers elements).run s =
      (.ok (elements.filterMap fun e => (verdict model markers e).toOption),
        { s with reports :=
          ⟨s.reports.diagnostics ++ elements.filterMap (rejection? model markers)⟩ }) :=
  h.answers.run_bindingsOf markers elements

/-- The binding of a class that breaks no rule is that of the contract that its marker
names, which the class inherits from. -/
theorem of_verdict_eq_ok {element : Element} {b : Binding}
    (hb : verdict model markers element = .ok b) :
    b.implementation = element ∧ contractIn? model markers element = some b.contract ∧
      model.inherits element b.contract = true := by
  rw [verdict] at hb
  split at hb
  next => cases hb
  next =>
    split at hb
    next => cases hb
    next contract hcontract =>
      split at hb
      next hinherits =>
        cases hb
        exact ⟨rfl, hcontract, hinherits⟩
      next => cases hb

end Resolution

/-! ## Providers of sources -/

section

open Symbols Registry Resolution

variable {p : Processor} {model : StaticModel} {s : Session}

/-- The bindings of the marked classes that break no rule. -/
def acceptedBindings (model : StaticModel) (markers : List String) : List Binding :=
  (model.marked markers).filterMap fun e => (verdict model markers e).toOption

/-- A round over sources scans them, and then accepts or rejects each marked class. -/
theorem Processor.of_run_accepted (hs : s.model = .static model) {bindings : List Binding}
    {asked : Session} (h : p.accepted.run s = (.ok bindings, asked)) :
    ∃ scanned reports, model.scan s.world.files s.reports = (scanned, reports, .ok ()) ∧
      bindings = acceptedBindings scanned p.markers ∧
      asked = { s with
        model := .static scanned
        reports := ⟨reports.diagnostics ++
          (scanned.marked p.markers).filterMap (rejection? scanned p.markers)⟩ } := by
  obtain ⟨elements, s', hannotated, h⟩ := Leaves.run_bind_eq_ok_iff.mp h
  obtain ⟨scanned, reports, hscan, rfl, rfl⟩ := Query.of_run_annotated hs hannotated
  have hscanned : Scanned scanned { s with model := .static scanned, reports } :=
    ⟨rfl, StaticModel.isSome_elements_of_scan hscan⟩
  rw [run_bindingsOf _ hscanned] at h
  obtain ⟨hbindings, hasked⟩ := Prod.mk.inj h
  exact ⟨scanned, reports, hscan, (Except.ok.inj hbindings).symm, hasked.symm⟩

/-- A round accepts what its static model has found, which it may have scanned before. -/
theorem FinishedRound.bindings_eq_acceptedBindings {r : FinishedRound} {scanned : StaticModel}
    {reports : Reports} (hmodel : r.start.model = .static model)
    (h : model.scan r.start.world.files r.start.reports = (scanned, reports, .ok ())) :
    r.bindings = acceptedBindings scanned r.processor.markers := by
  obtain ⟨found, reports', hscan, hbindings, -⟩ := Processor.of_run_accepted hmodel r.run_accepted
  obtain rfl : found = scanned := congrArg Prod.fst (hscan.symm.trans h)
  exact hbindings

/-- Every binding is that of a marked class that breaks no rule. -/
theorem of_mem_acceptedBindings {markers : List String} {b : Binding}
    (h : b ∈ acceptedBindings model markers) :
    b.implementation ∈ model.marked markers ∧ verdict model markers b.implementation = .ok b := by
  obtain ⟨e, he, hverdict⟩ := List.mem_filterMap.mp h
  cases hv : verdict model markers e with
  | error message =>
    rw [hv] at hverdict
    cases hverdict
  | ok found =>
    rw [hv] at hverdict
    obtain rfl : found = b := Option.some.inj hverdict
    obtain rfl := (of_verdict_eq_ok markers hv).1
    exact ⟨he, hv⟩

/-- The classes that sources declare and the contracts that they are accepted for have
dotted names. -/
theorem isDotted_of_mem_acceptedBindings (h : model.WellNamed) (markers : List String) :
    ∀ b ∈ acceptedBindings model markers, IsDotted b.key ∧ IsDotted b.name := by
  intro b hb
  obtain ⟨hmarked, hverdict⟩ := of_mem_acceptedBindings hb
  obtain ⟨entry, hentry, heq⟩ := List.mem_map.mp (List.mem_filter.mp hmarked).1
  have hnamed : NamedElement b.implementation := heq ▸ h.found entry hentry
  exact ⟨StaticModel.isDotted_of_inherits h.found hnamed (of_verdict_eq_ok markers hverdict).2.2,
    hnamed.qualifiedName⟩

end

end ProviderRegistry
