import ProviderRegistry.Proofs.Walking

/-!
# Assignable classes of sources

Whether a class of sources is assignable to a contract is answered by a walk over the supertypes
that it lists, and by a scan of the sources when the walk first asks for one of them. The walk
comes to an end whatever the classes list, themselves and each other included, and its answer is
whether a chain of supertypes leads to the contract (`Query.isAssignable_iff_listed`). Only where
the scan ends early is there no answer, and then only if a supertype had to be asked for.
-/

namespace ProviderRegistry.Symbols

/-- What can be said of a class and a contract before any other class is asked for: yes, if the
class has the name of the contract or lists it first, and no, if it lists nothing. -/
def answerAtOnce? (target : String) (e : Element) : Option Bool :=
  if e.qualifiedName = target then some true
  else
    match e.supertypes with
    | [] => some false
    | first :: _ => if first = target then some true else none

namespace Query

variable {model scanned : StaticModel} {world : World} {reports reports' : Reports}

/-! ## Scans that end well -/

/-- The first question makes a static model scan its sources, and all questions are answered from
what it has found. -/
theorem exists_run_element?_of_scan
    (hscan : model.scan world.files reports = (scanned, reports', .ok ())) (name : String)
    {s : Session}
    (hs : s = ⟨.static model, world, reports⟩ ∨ s = ⟨.static scanned, world, reports'⟩) :
    ∃ s', (element? name).run s = (.ok (scanned.element? name), s') ∧
      (s' = ⟨.static model, world, reports⟩ ∨ s' = ⟨.static scanned, world, reports'⟩) := by
  rcases hs with rfl | rfl
  · refine ⟨⟨.static scanned, world, reports'⟩, ?_, .inr rfl⟩
    rw [element?, Leaves.run_bind, run_scan_of_static rfl]
    simp only [hscan]
    rfl
  · have hscanned : Scanned scanned ⟨.static scanned, world, reports'⟩ :=
      ⟨rfl, StaticModel.isSome_elements_of_scan hscan⟩
    exact ⟨_, run_element? hscanned name, .inr rfl⟩

theorem run_isAssignable_of_scan
    (hscan : model.scan world.files reports = (scanned, reports', .ok ())) (e contract : Element) :
    ((isAssignable e contract).run ⟨.static model, world, reports⟩).1 =
      .ok (scanned.inherits e contract) := by
  have hsteps : supertypeCount ⟨.static model, world, reports⟩ e + 1 = scanned.walkSteps e := by
    simp only [supertypeCount, hscan, StaticModel.walkSteps]
  obtain ⟨s', hrun, -⟩ := exists_run_inherits
    (fun name _ hs => exists_run_element?_of_scan hscan name hs) e contract (.inl rfl)
  rw [hsteps] at hrun
  rw [isAssignable, Leaves.run_get_bind]
  exact congrArg Prod.fst hrun

/-! ## Scans that end early -/

/-- A scan that ends early leaves every question without an answer. -/
theorem run_element?_of_fault {fault : ScanFault}
    (hscan : model.scan world.files reports = (scanned, reports', .error fault)) (name : String) :
    ((element? name).run ⟨.static model, world, reports⟩) =
      (.error fault.raised, ⟨.static scanned, world, reports'⟩) := by
  rw [element?, Leaves.run_bind, run_scan_of_static rfl]
  simp only [hscan]
  rfl

theorem run_isAssignable_of_fault {fault : ScanFault}
    (hscan : model.scan world.files reports = (scanned, reports', .error fault))
    (e contract : Element) :
    ((isAssignable e contract).run ⟨.static model, world, reports⟩).1 =
      match answerAtOnce? contract.qualifiedName e with
      | some answer => .ok answer
      | none => .error fault.raised := by
  rw [isAssignable, Leaves.run_get_bind, answerAtOnce?]
  simp only [inherits, Leaves.run_get_bind, walkUp]
  by_cases hself : e.qualifiedName = contract.qualifiedName
  · rw [if_pos hself, if_pos hself]
    rfl
  rw [if_neg hself, if_neg hself, Leaves.run_bind]
  cases hnames : e.supertypes with
  | nil =>
    simp only [lookThrough]
    have hsteps : ∀ steps, (walkUp element? contract.qualifiedName steps [] []).run
        ⟨.static model, world, reports⟩ = (.ok false, ⟨.static model, world, reports⟩) := by
      intro steps
      cases steps <;> rfl
    exact congrArg Prod.fst (hsteps _)
  | cons first rest =>
    simp only [lookThrough]
    by_cases hfirst : first = contract.qualifiedName
    · rw [if_pos hfirst, if_pos hfirst]
      rfl
    · rw [if_neg hfirst, if_neg hfirst, if_neg (by simp), Leaves.run_bind,
        run_element?_of_fault hscan]

/-! ## Any session -/

/-- **Which classes of sources are assignable to a contract**, whether the sources have been
scanned or not, and whatever their classes derive from: the walk comes to an end, and its answer
is whether a chain of listed supertypes leads to a class that has the name of the contract or
lists it. There is no answer only where the scan of the sources ends early and the class itself
does not settle it. -/
theorem isAssignable_iff_listed (model : StaticModel) (world : World) (reports : Reports)
    (e contract : Element) :
    match model.scan world.files reports with
    | (scanned, _, .ok ()) => ∃ answer,
        ((isAssignable e contract).run ⟨.static model, world, reports⟩).1 = .ok answer ∧
        Ends scanned.element? contract.qualifiedName [e] [] answer ∧
        (answer = true ↔
          ∃ above, Relation.ReflTransGen (ListsBase scanned.element?) e above ∧
            (above.qualifiedName = contract.qualifiedName ∨
              contract.qualifiedName ∈ above.supertypes))
    | (_, _, .error fault) =>
        ((isAssignable e contract).run ⟨.static model, world, reports⟩).1 =
          match answerAtOnce? contract.qualifiedName e with
          | some answer => .ok answer
          | none => .error fault.raised := by
  rcases hscan : model.scan world.files reports with ⟨scanned, reports', result⟩
  cases result with
  | ok u =>
    have hends := scanned.ends_inherits e contract
    exact ⟨scanned.inherits e contract, run_isAssignable_of_scan hscan e contract, hends,
      hends.eq_true_iff.trans reaches_iff⟩
  | error fault => exact run_isAssignable_of_fault hscan e contract

end Query

end ProviderRegistry.Symbols
