import ProviderRegistry.Proofs.Processing

/-!
# What resolution sees of a symbol model

Resolving a class asks a symbol model for classes by name and for which classes inherit from
which. A model that always gives the same answers to these questions, and is not changed by
them, is seen through its `View`: whether it was read or imported, its view alone settles
which of some classes are accepted and for which contracts (`AnswersAs.run_bindingsOf`).
-/

namespace ProviderRegistry

open Symbols Registry Resolution

namespace Symbols

/-- The answers of a symbol model. -/
structure View where
  element? : String → Option Element
  isAssignable : Element → Element → Bool

/-- A session gives the answers of a view, whatever has been reported in it, and stays as it
is. -/
structure AnswersAs (v : View) (s : Session) : Prop where
  element? : ∀ name reports, (Query.element? name).run { s with reports } =
    (.ok (v.element? name), { s with reports })
  isAssignable : ∀ element contract reports,
    (Query.isAssignable element contract).run { s with reports } =
      (.ok (v.isAssignable element contract), { s with reports })

section

variable {ask : String → Option Element} {I : Session → Prop}
  (hask : ∀ name s, I s → ∃ s', (Query.element? name).run s = (.ok (ask name), s') ∧ I s')

include hask

theorem exists_run_lookThrough (target : String) (names seen : List String) (queue : List Element)
    {s : Session} (hs : I s) : ∃ s', (lookThrough Query.element? target names seen queue).run s =
      (.ok (Id.run (lookThrough ask target names seen queue)), s') ∧ I s' := by
  induction names generalizing seen queue s with
  | nil => exact ⟨s, rfl, hs⟩
  | cons name rest ih =>
    rw [lookThrough, lookThrough]
    split
    · exact ⟨s, rfl, hs⟩
    · split
      · exact ih seen queue hs
      · obtain ⟨s', hrun, hs'⟩ := hask name s hs
        rw [Leaves.run_bind, hrun]
        exact ih _ _ hs'

theorem exists_run_walkUp (target : String) (steps : Nat) (queue : List Element)
    (seen : List String) {s : Session} (hs : I s) :
    ∃ s', (walkUp Query.element? target steps queue seen).run s =
      (.ok (Id.run (walkUp ask target steps queue seen)), s') ∧ I s' := by
  induction steps generalizing queue seen s with
  | zero => exact ⟨s, rfl, hs⟩
  | succ steps ih =>
    cases queue with
    | nil => exact ⟨s, rfl, hs⟩
    | cons current queue =>
      rw [walkUp, walkUp]
      split
      · exact ⟨s, rfl, hs⟩
      · obtain ⟨s', hrun, hs'⟩ :=
          exists_run_lookThrough hask target current.supertypes seen queue hs
        rw [Leaves.run_bind, hrun, Id.run_bind]
        simp only
        cases Id.run (lookThrough ask target current.supertypes seen queue) with
        | found => exact ⟨s', rfl, hs'⟩
        | further seen queue => exact ih queue seen hs'

/-- Walking upward asks for classes only, and keeps what asking for them keeps. -/
theorem exists_run_inherits (element contract : Element) {s : Session} (hs : I s) :
    ∃ s', (Query.inherits element contract).run s =
      (.ok (Id.run (walkUp ask contract.qualifiedName (supertypeCount s element + 1) [element] [])),
        s') ∧ I s' := by
  rw [Query.inherits, Leaves.run_get_bind]
  exact exists_run_walkUp hask _ _ _ _ hs

end

theorem run_inherits {ask : String → Option Element} {s : Session}
    (hask : ∀ name, (Query.element? name).run s = (.ok (ask name), s))
    (element contract : Element) :
    (Query.inherits element contract).run s =
      (.ok (Id.run (walkUp ask contract.qualifiedName (supertypeCount s element + 1) [element] [])),
        s) := by
  have hkeeps : ∀ name s', s' = s →
      ∃ s'', (Query.element? name).run s' = (.ok (ask name), s'') ∧ s'' = s := by
    rintro name _ rfl
    exact ⟨_, hask name, rfl⟩
  obtain ⟨_, hrun, rfl⟩ := exists_run_inherits hkeeps element contract (s := s) rfl
  exact hrun

namespace View

variable (v : View) (markers : List String) (element : Element)

/-- The class with a qualified name, or what stands for it. -/
def reference (name : String) : Element := (v.element? name).getD (.undeclared name)

/-- The contract that the marker of a class names. -/
def contract? : Option Element :=
  match (element.annotation? markers).bind (·.value? "value") with
  | some (.literal (.str name)) => some (v.reference name)
  | some (.type contract) => some ((v.element? contract.qualifiedName).getD contract)
  | _ => none

/-- What resolution says of a class: its binding, or the text of the first rule that the class
breaks. -/
def verdict : Except String Binding :=
  if !isConcrete element then .error (element.qualifiedName ++ " must be a concrete class")
  else match v.contract? markers element with
    | none => .error "Missing required value argument"
    | some contract =>
      if v.isAssignable element contract then
        .ok ⟨contract, element, requestsFactory markers element⟩
      else .error (notAssignable element contract)

/-- The report of a class that is rejected, which is tied to the class. -/
def rejection? : Option Diagnostic :=
  match v.verdict markers element with
  | .ok _ => none
  | .error message => some { message, element }

end View

namespace AnswersAs

variable {v : View} {s : Session} (h : AnswersAs v s) (markers : List String)

include h

theorem run_reference (name : String) :
    (Query.reference name).run s = (.ok (v.reference name), s) := by
  rw [Query.reference, Leaves.run_bind, h.element? name s.reports]
  rfl

theorem run_contractOf (element : Element) :
    (contractOf markers element).run s = (.ok (v.contract? markers element), s) := by
  unfold contractOf View.contract?
  generalize (element.annotation? markers).bind (·.value? "value") = value
  rcases value with _ | (literal | contract)
  · rfl
  · cases literal with
    | str name =>
      change (do return some (← Query.reference name) : Query (Option Element)).run s = _
      rw [Leaves.run_bind, h.run_reference]
      rfl
    | _ => rfl
  · change (do return some ((← Query.element? contract.qualifiedName).getD contract) :
      Query (Option Element)).run s = _
    rw [Leaves.run_bind, h.element? contract.qualifiedName s.reports]
    rfl

/-- Resolving one class gives its binding, or reports why there is none. -/
theorem run_bindingOf (element : Element) :
    (bindingOf markers element).run s =
      (.ok (v.verdict markers element).toOption,
        { s with reports :=
          ⟨s.reports.diagnostics ++ (v.rejection? markers element).toList⟩ }) := by
  rw [bindingOf, Leaves.run_bind, h.run_contractOf, View.rejection?, View.verdict]
  -- The rules are tried in this order, and the first that is broken is reported.
  by_cases hconcrete : (!isConcrete element) = true
  · simp only [if_pos hconcrete]
    rfl
  · simp only [if_neg hconcrete]
    cases v.contract? markers element with
    | none => rfl
    | some contract =>
      simp only
      rw [Leaves.run_bind, h.isAssignable element contract s.reports]
      by_cases hassignable : v.isAssignable element contract = true
      · simp only [if_pos hassignable, Option.toList_none, List.append_nil]
        rfl
      · simp only [if_neg hassignable]
        rfl

/-- **Resolving classes** gives the bindings of those that break no rule, and reports the
others in the order of their discovery. -/
theorem run_bindingsOf (elements : List Element) :
    (Resolution.bindingsOf markers elements).run s =
      (.ok (elements.filterMap fun e => (v.verdict markers e).toOption),
        { s with reports :=
          ⟨s.reports.diagnostics ++ elements.filterMap (v.rejection? markers)⟩ }) := by
  have hall : (elements.mapM (bindingOf markers)).run s =
      (.ok (elements.map fun e => (v.verdict markers e).toOption),
        { s with reports :=
          ⟨s.reports.diagnostics ++ elements.filterMap (v.rejection? markers)⟩ }) := by
    induction elements generalizing s with
    | nil =>
      rw [List.mapM_nil, List.filterMap_nil, List.append_nil]
      rfl
    | cons e rest ih =>
      rw [List.mapM_cons, Leaves.run_bind, h.run_bindingOf]
      simp only
      -- Reports change no answer, so that the next class is resolved against the same ones.
      have hnext : AnswersAs v { s with reports :=
          ⟨s.reports.diagnostics ++ (v.rejection? markers e).toList⟩ } :=
        ⟨h.element?, h.isAssignable⟩
      rw [Leaves.run_bind, ih hnext, List.filterMap_cons]
      cases v.rejection? markers e with
      | none =>
        simp only [Option.toList_none, List.append_nil]
        rfl
      | some report =>
        simp only [Option.toList_some, List.append_assoc, List.singleton_append]
        rfl
  rw [Resolution.bindingsOf, Leaves.run_bind, hall]
  simp only [List.filterMap_map]
  rfl

end AnswersAs

end Symbols

end ProviderRegistry
