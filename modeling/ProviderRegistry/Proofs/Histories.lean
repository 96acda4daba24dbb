import ProviderRegistry.Proofs.Unimportable
import ProviderRegistry.Proofs.Walking

/-!
# Questions that have been asked before

Whether a class is assignable to a contract is answered from the classes themselves if the model
knows both, and by a walk over the names of bases otherwise. A contract that no scan has found is
known from the moment on at which the element of a class is made whose marker names it. So the
answer is the same after all questions exactly if, for each such contract, the subtypes among the
classes that were found are those from which a chain of names leads to it (`answers_agree_iff`).
The two part where a class that no scan has found stands between a class and its contract
(`assignable_once_asked`).
-/

namespace ProviderRegistry

open World

namespace Symbols

namespace LiveModel

variable {model model' : LiveModel} {w : World} {a b : Element}

/-- The element of a class that was found names the bases of the class. -/
theorem supertypes_of_element? {name : String} {e : Element} (h : model.element? w name = some e) :
    ∃ entry ∈ model.found, ∃ c, w.class? entry.2 = some c ∧
      e.supertypes = (c.bases.filterMap w.class?).map (·.qualifiedName) := by
  obtain ⟨id, hfound, hid⟩ := Option.bind_eq_some_iff.mp h
  obtain ⟨c, hc, rfl⟩ := Option.map_eq_some_iff.mp hid
  exact ⟨(name, id), Table.mem_of_lookup hfound, c, hc, rfl⟩

/-- **By name**, a class is assignable if a chain of names of bases leads from it to the contract. -/
theorem isAssignable_iff_reaches
    (h : model.found.lookup a.qualifiedName = none ∨ model.known.lookup b.qualifiedName = none) :
    model.isAssignable w a b = true ↔ Reaches (model.element? w) b.qualifiedName a := by
  have hwalk : model.isAssignable w a b = Id.run (walkUp (model.element? w) b.qualifiedName
      (a.supertypes.length + (model.found.flatMap fun entry =>
        ((w.class? entry.2).map (·.bases)).getD []).length + 1) [a] []) := by
    rw [isAssignable]
    rcases h with h | h
    · rw [h]
    · rw [h]
      cases model.found.lookup a.qualifiedName <;> rfl
  rw [hwalk]
  -- The names of the bases of all classes are no more than the bases themselves.
  set names := fun entry : String × ClassId =>
    (((w.class? entry.2).map (·.bases)).getD []).filterMap w.class? |>.map (·.qualifiedName)
  refine (ends_walkUp_singleton (U := a.supertypes ++ model.found.flatMap names)
    (List.subset_append_left _ _) (fun name e he => ?_) ?_).eq_true_iff
  · obtain ⟨entry, hentry, c, hc, hsupertypes⟩ := supertypes_of_element? he
    refine List.subset_append_of_subset_right _ fun base hbase => ?_
    refine List.mem_flatMap.mpr ⟨entry, hentry, ?_⟩
    rw [hsupertypes] at hbase
    simp only [names, hc]
    exact hbase
  · rw [List.length_append, List.length_flatMap, List.length_flatMap]
    refine Nat.add_le_add_right (Nat.add_le_add_left (List.sum_le_sum fun entry _ => ?_) _) _
    rw [List.length_map]
    exact List.length_filterMap_le _ _

/-- A subtype is assignable to a contract that is known. -/
theorem isAssignable_of_known {id target : ClassId}
    (ha : model.found.lookup a.qualifiedName = some id)
    (hb : model.known.lookup b.qualifiedName = some target) :
    model.isAssignable w a b = w.classes.isSubtype id target := by
  rw [isAssignable, ha, hb]

theorem Makes.marks (h : Makes w model model') {name : String} {target : ClassId}
    (hmarks : model'.Marks w name target) : model.Marks w name target := by
  rw [Marks, h.found] at hmarks
  exact hmarks

/-- What is known by name and what the classes say are the same of all contracts that were not
found. -/
def NamesAgree (model : LiveModel) (w : World) (a b : Element) : Prop :=
  ∀ id target, model.found.lookup a.qualifiedName = some id →
    model.found.lookup b.qualifiedName = none → model.Marks w b.qualifiedName target →
    (w.classes.isSubtype id target = true ↔ Reaches (model.element? w) b.qualifiedName a)

/-- Making elements changes an answer only if names and classes disagree. -/
theorem NamesAgree.isAssignable_eq (h : model.NamesAgree w a b) (hcontracts : model.contracts = [])
    (hmakes : Makes w model model') : model'.isAssignable w a b = model.isAssignable w a b := by
  have hknown : model.known = model.found := by rw [known, hcontracts, List.append_nil]
  have hknown' : model'.known.lookup b.qualifiedName =
      (model.found.lookup b.qualifiedName).or (model'.contracts.lookup b.qualifiedName) := by
    rw [known, List.lookup_append, hmakes.found]
  have hreaches : Reaches (model'.element? w) b.qualifiedName a ↔
      Reaches (model.element? w) b.qualifiedName a := by
    rw [funext hmakes.element?_eq]
  rw [Bool.eq_iff_iff]
  cases ha : model.found.lookup a.qualifiedName with
  | none =>
    rw [isAssignable_iff_reaches (.inl ha),
      isAssignable_iff_reaches (.inl (hmakes.found.symm ▸ ha)), hreaches]
  | some id =>
    have ha' : model'.found.lookup a.qualifiedName = some id := hmakes.found.symm ▸ ha
    cases hb : model.found.lookup b.qualifiedName with
    | some target =>
      rw [hb, Option.some_or] at hknown'
      rw [isAssignable_of_known ha' hknown', isAssignable_of_known ha (hknown ▸ hb)]
    | none =>
      have hwalk : model.isAssignable w a b = true ↔
          Reaches (model.element? w) b.qualifiedName a :=
        isAssignable_iff_reaches (.inr (hknown ▸ hb))
      rw [hwalk]
      rw [hb, Option.none_or] at hknown'
      cases hcontract : model'.contracts.lookup b.qualifiedName with
      | none => rw [isAssignable_iff_reaches (.inr (hknown'.trans hcontract)), hreaches]
      | some target =>
        rw [isAssignable_of_known ha' (hknown'.trans hcontract)]
        exact h id target ha hb (hmakes.marks (hmakes.ready.marks _ _ hcontract))

end LiveModel

/-! ## Answers after questions -/

/-- The answer of a session to the question whether a class is assignable. -/
def Session.assignable (s : Session) (a b : Element) : Except Raised Bool :=
  ((Query.isAssignable a b).run s).1

section

variable {model : LiveModel} {s : Session} (hs : s.model = .live model)
  (htypes : model.types = none) (helements : model.elements = []) (hcontracts : model.contracts = [])
  (hok : (model.tour s.world).result = .ok ())

include hs htypes helements hcontracts hok

/-- After any questions, the answer is that of the classes that were found with some more contracts
known. -/
theorem exists_assignable_after (asked : List Question) (a b : Element) : ∃ model',
    LiveModel.Makes (model.worldAfter s.world) (model.imported s.world) model' ∧
    (s.after asked).assignable a b = .ok (model'.isAssignable (model.worldAfter s.world) a b) ∧
    (asked = [] → model' = model.imported s.world) := by
  have hready := LiveModel.ready_imported (w := s.world) helements hcontracts
  cases asked with
  | nil =>
    obtain ⟨s', hrun, -⟩ :=
      exists_run_ask_of_new hs htypes helements hcontracts (.isAssignable a b)
    rw [hok] at hrun
    exact ⟨_, ⟨hready, rfl⟩, congrArg Prod.fst hrun, fun _ => rfl⟩
  | cons first rest =>
    obtain ⟨model', hafter, hmodel'⟩ :=
      makes_after_of_new hs htypes helements hcontracts (List.cons_ne_nil first rest)
    obtain ⟨s', hrun, -⟩ := exists_run_ask
      (s := { s.toured model with model := .live model' }) rfl hmodel'.ready (.isAssignable a b)
    rw [hafter]
    exact ⟨model', hmodel', congrArg Prod.fst hrun, fun h => nomatch h⟩

/-- After the element of a marked class has been made, and no other, its contract is known. -/
theorem exists_after_element {id target : ClassId} {a b : Element}
    (ha : (model.imported s.world).found.lookup a.qualifiedName = some id)
    (hb : (model.imported s.world).found.lookup b.qualifiedName = none)
    (hmarks : (model.imported s.world).Marks (model.worldAfter s.world) b.qualifiedName target) :
    ∃ asked, (s.after asked).assignable a b =
      .ok ((model.worldAfter s.world).classes.isSubtype id target) := by
  obtain ⟨entry, hentry, c, m, d, hc, hm, hvalue, hd, hname⟩ := hmarks
  have hready := LiveModel.ready_imported (w := s.world) helements hcontracts
  have hscan := Query.run_scan_of_new hs htypes
  rw [hok] at hscan
  obtain ⟨model', hmodel', hmakes⟩ := hready.exists_elementOf? hentry
  have hsession : s.after [.element entry.1] = { s.toured model with model := .live model' } := by
    have hrun := run_ask_of_scan hs hscan rfl hready.types (.element entry.1)
    change ((Question.element entry.1).ask.run s).2 = _
    rw [hrun]
    change ((Query.element? entry.1).run (s.toured model)).2 = _
    rw [Query.run_element?_of_found rfl hready.types (hready.lookup_found hentry)]
    change { s.toured model with
      model := .live ((model.imported s.world).elementOf? (model.worldAfter s.world) entry.2).1 } = _
    rw [hmodel']
  have hcontract : model'.contracts.lookup b.qualifiedName = some target := by
    have hnew : (model.imported s.world).elements.lookup c.qualifiedName = none := by
      rw [LiveModel.imported, helements]
      rfl
    rw [LiveModel.elementOf?_of_new hc hnew] at hmodel'
    obtain rfl := (Prod.mk.inj hmodel').1
    change ((model.imported s.world).contractsWith (model.worldAfter s.world) c.marker).lookup _ = _
    rw [LiveModel.contractsWith, hm, Option.map_some, Option.getD_some, LiveModel.addContract]
    simp only [hvalue, hd, LiveModel.imported, hcontracts]
    rw [hname, Table.lookup_setMissing]
    exact List.lookup_cons_self
  refine ⟨[.element entry.1], ?_⟩
  obtain ⟨s', hrun, -⟩ := exists_run_ask
    (s := { s.toured model with model := .live model' }) rfl hmakes.ready (.isAssignable a b)
  rw [hsession]
  refine (congrArg Prod.fst hrun).trans (congrArg Except.ok ?_)
  refine LiveModel.isAssignable_of_known (hmakes.found.symm ▸ ha) ?_
  rw [LiveModel.known, List.lookup_append, hmakes.found, hb, Option.none_or, hcontract]

/-- **Whether a class is assignable** is answered after any questions, and the answer is the same
after all questions exactly if names and classes agree. -/
theorem answers_agree_iff (a b : Element) :
    (∀ asked, ∃ answer, (s.after asked).assignable a b = .ok answer) ∧
      ((∀ asked asked', (s.after asked).assignable a b = (s.after asked').assignable a b) ↔
        (model.imported s.world).NamesAgree (model.worldAfter s.world) a b) := by
  have hafter := exists_assignable_after hs htypes helements hcontracts hok
  refine ⟨fun asked => ?_, fun hsame id target ha hb hmarks => ?_, fun hagree asked asked' => ?_⟩
  · obtain ⟨model', -, hanswer, -⟩ := hafter asked a b
    exact ⟨_, hanswer⟩
  · obtain ⟨asked, hasked⟩ := exists_after_element hs htypes helements hcontracts hok ha hb hmarks
    obtain ⟨model', -, hfirst, hmodel'⟩ := hafter [] a b
    obtain rfl := hmodel' rfl
    have hknown : (model.imported s.world).known = (model.imported s.world).found := by
      rw [LiveModel.known, LiveModel.imported, hcontracts, List.append_nil]
    rw [← LiveModel.isAssignable_iff_reaches (.inr (hknown.symm ▸ hb)), ← Bool.eq_iff_iff]
    exact Except.ok.inj (hasked.symm.trans ((hsame asked []).trans hfirst))
  · obtain ⟨model₁, hmakes₁, hanswer₁, -⟩ := hafter asked a b
    obtain ⟨model₂, hmakes₂, hanswer₂, -⟩ := hafter asked' a b
    rw [hanswer₁, hanswer₂, hagree.isAssignable_eq hcontracts hmakes₁,
      hagree.isAssignable_eq hcontracts hmakes₂]

end

/-! ### A class between a class and its contract -/

/-- A contract `A` and a class `B` that inherits from it, and in another module two classes that
inherit from `B`, of which one is marked as a provider of `A`. -/
def stretchedWorld : World :=
  modulesWorld [["src"]] [
    (["src", "x.py"], [
      .declare { name := "A" },
      .declare { name := "B", bases := [.named "A" []] }]),
    (["src", "m.py"], [
      .declare { name := "I", bases := [.qualified "x" ["B"]] },
      .declare {
        name := "J"
        bases := [.qualified "x" ["B"]]
        marker := some { value := some (.ref (.qualified "x" ["A"])) } }])]

def stretchedClass : Element where
  module := "m"
  qualname := "I"
  supertypes := ["x.B"]

def stretchedContract : Element := .undeclared "x.A"

/-- While the contract is found with the other classes, no question changes the answer. -/
theorem assignable_whatever_asked :
    let s := modulesSession ["x", "m"] stretchedWorld
    s.assignable stretchedClass stretchedContract = .ok true ∧
      ∀ asked, (s.after asked).assignable stretchedClass stretchedContract = .ok true := by
  have hok : ((modulesModel ["x", "m"]).tour stretchedWorld).result = .ok () := by
    simp only [stretchedWorld, modulesWorld, toList_programText, List.map_cons, List.map_nil]
    decide +kernel
  have hfound : (((modulesModel ["x", "m"]).imported stretchedWorld).found.lookup
      stretchedContract.qualifiedName).isSome = true := by
    simp only [stretchedWorld, modulesWorld, toList_programText, List.map_cons, List.map_nil]
    decide +kernel
  have hfirst : (modulesSession ["x", "m"] stretchedWorld).assignable
      stretchedClass stretchedContract = .ok true := by
    simp only [modulesSession, stretchedWorld, modulesWorld, toList_programText, List.map_cons,
      List.map_nil]
    decide +kernel
  obtain ⟨-, hagree⟩ := answers_agree_iff (s := modulesSession ["x", "m"] stretchedWorld)
    rfl rfl rfl rfl hok stretchedClass stretchedContract
  refine ⟨hfirst, fun asked => (hagree.mpr (fun id target _ hnone _ => ?_) asked []).trans hfirst⟩
  change ((modulesModel ["x", "m"]).imported stretchedWorld).found.lookup _ = none at hnone
  rw [hnone] at hfound
  cases hfound

/-- Where only the other module is imported, the class is not assignable to the contract at first,
and it is once all classes have been asked for. -/
theorem assignable_once_asked :
    let s := modulesSession ["m"] stretchedWorld
    s.assignable stretchedClass stretchedContract = .ok false ∧
      (s.after [.elements]).assignable stretchedClass stretchedContract = .ok true := by
  simp only [modulesSession, stretchedWorld, modulesWorld, toList_programText, List.map_cons,
    List.map_nil]
  decide +kernel

end Symbols

end ProviderRegistry
