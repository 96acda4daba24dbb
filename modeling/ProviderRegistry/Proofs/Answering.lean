import ProviderRegistry.Proofs.Rounds
import ProviderRegistry.Proofs.Scanning
import ProviderRegistry.Proofs.Views

/-!
# Answers of live classes

A live model makes the element of a class when it is first asked for it, and keeps it. Once all
its classes have been asked for, every element is there, and no question changes the model any
more (`Surveyed.answers`). So a round over imported modules sees the classes that are there after
the import, each with its marker (`FinishedRound.bindings_eq_of_live`).
-/

namespace ProviderRegistry

open World

namespace Symbols

/-- The element of a class with its marker. -/
def markedElement (w : World) (id : ClassId) (c : LiveClass) : Element :=
  { liveElement w id c with annotations := (c.marker.map (liveMark w)).toList }

namespace LiveModel

section

variable (model : LiveModel) (w : World)

/-- The element of a class that was found. -/
def elementAt? (id : ClassId) : Option Element := (w.class? id).map (markedElement w id)

/-- The class with a qualified name. -/
def element? (name : String) : Option Element := (model.found.lookup name).bind (elementAt? w)

/-- The classes that carry one of some markers, in the order of their discovery. -/
def marked (markers : List String) : List Element :=
  (model.found.filterMap fun entry => elementAt? w entry.2).filter fun e =>
    (e.annotation? markers).isSome

/-- The classes that are known by name: those that were found, and the contracts that markers
name. -/
def known : Table String ClassId := model.found ++ model.contracts

/-- Whether a class is a contract or inherits from it. -/
def isAssignable (element contract : Element) : Bool :=
  match model.found.lookup element.qualifiedName, model.known.lookup contract.qualifiedName with
  | some id, some target => w.classes.isSubtype id target
  | _, _ =>
    let named := model.found.flatMap fun (_, id) => ((w.class? id).map (·.bases)).getD []
    Id.run (walkUp (model.element? w) contract.qualifiedName
      (element.supertypes.length + named.length + 1) [element] [])

/-- What resolution sees of a live model. -/
def view : View := ⟨model.element? w, model.isAssignable w⟩

/-- Every class was found under its own name, and no name twice. -/
structure WellFound : Prop where
  nodup : (model.found.map (·.1)).Nodup
  named : ∀ entry ∈ model.found, ∃ c, w.class? entry.2 = some c ∧ c.qualifiedName = entry.1

end

variable {model : LiveModel} {w : World} {id : ClassId} {c : LiveClass}

/-! ## Making elements -/

/-- The contracts that are known once a marker, if there is one, has been read. -/
def contractsWith (model : LiveModel) (w : World) (marker : Option Marker) :
    Table String ClassId :=
  ((marker.map (model.addContract w)).getD model).contracts

/-- Reading a marker changes nothing but the contracts. -/
theorem addContract_eq (model : LiveModel) (w : World) (marker : Option Marker) :
    (marker.map (model.addContract w)).getD model =
      { model with contracts := model.contractsWith w marker } := by
  rw [contractsWith]
  cases marker with
  | none => rfl
  | some m =>
    rw [Option.map_some, Option.getD_some, addContract]
    split
    · split <;> rfl
    · rfl

/-- An element that is new is made and kept, -/
theorem elementOf?_of_new (hc : w.class? id = some c)
    (hnew : model.elements.lookup c.qualifiedName = none) :
    model.elementOf? w id =
      ({ model with
          contracts := model.contractsWith w c.marker
          elements := Table.set c.qualifiedName (markedElement w id c) model.elements },
        some (markedElement w id c)) := by
  rw [elementOf?, hc]
  simp only [element, hnew, addContract_eq]
  rfl

/-- and one that is there changes nothing. -/
theorem elementOf?_of_kept {e : Element} (hc : w.class? id = some c)
    (hkept : model.elements.lookup c.qualifiedName = some e) :
    model.elementOf? w id = (model, some e) := by
  rw [elementOf?, hc]
  simp only [element, hkept]

theorem types_elementOf? (model : LiveModel) (w : World) (id : ClassId) :
    (model.elementOf? w id).1.types = model.types := by
  cases hc : w.class? id with
  | none => rw [elementOf?, hc]
  | some c =>
    cases hkept : model.elements.lookup c.qualifiedName with
    | some e => rw [elementOf?_of_kept hc hkept]
    | none => rw [elementOf?_of_new hc hkept]

/-- Making elements finds no classes. -/
theorem found_elementsOf (model : LiveModel) (w : World) :
    (model.elementsOf w).1.found = model.found := by
  refine congrArg (Option.getD · []) ?_
  exact List.foldlRecOn (motive := fun made : LiveModel × List Element =>
    made.1.types = model.types) model.found _ rfl fun made hmade entry _ =>
      (types_elementOf? made.1 w entry.2).trans hmade

/-- One step through the classes found: the element of the next class is made. -/
def gather (w : World) (made : LiveModel × List Element) (entry : String × ClassId) :
    LiveModel × List Element :=
  ((made.1.elementOf? w entry.2).1, made.2 ++ (made.1.elementOf? w entry.2).2.toList)

/-- Going through classes whose elements are new makes all their elements. -/
theorem foldl_gather (model : LiveModel) {items : Table String ClassId}
    (hnodup : (items.map (·.1)).Nodup)
    (hnamed : ∀ entry ∈ items, ∃ c, w.class? entry.2 = some c ∧ c.qualifiedName = entry.1)
    (hnew : ∀ entry ∈ items, model.elements.lookup entry.1 = none) (elements : List Element) :
    ∃ gathered : LiveModel, items.foldl (gather w) (model, elements) =
        (gathered, elements ++ items.filterMap fun entry => elementAt? w entry.2) ∧
      ∀ name, gathered.elements.lookup name =
        ((items.lookup name).bind (elementAt? w)).or (model.elements.lookup name) := by
  induction items generalizing model elements with
  | nil => exact ⟨model, by rw [List.filterMap_nil, List.append_nil]; rfl, fun _ => rfl⟩
  | cons entry rest ih =>
    obtain ⟨hentry, hrest⟩ := List.nodup_cons.mp hnodup
    obtain ⟨⟨c, hc, hname⟩, hnamed⟩ := List.forall_mem_cons.mp hnamed
    obtain ⟨hnewEntry, hnew⟩ := List.forall_mem_cons.mp hnew
    have hmade := elementOf?_of_new hc (hname ▸ hnewEntry)
    have hat : elementAt? w entry.2 = some (markedElement w entry.2 c) := by
      rw [elementAt?, hc, Option.map_some]
    -- The elements of the other classes are still new, since no name stands twice.
    have hother : ∀ other ∈ rest, other.1 ≠ entry.1 := by
      intro other hother heq
      exact hentry (List.mem_map.mpr ⟨other, hother, heq⟩)
    have hstill : ∀ other ∈ rest, (Table.set c.qualifiedName (markedElement w entry.2 c)
        model.elements).lookup other.1 = none := by
      intro other hmem
      rw [Table.lookup_set_of_ne (hname ▸ hother other hmem)]
      exact hnew other hmem
    obtain ⟨gathered, hrun, hlookup⟩ := ih { model with
      contracts := model.contractsWith w c.marker
      elements := Table.set c.qualifiedName (markedElement w entry.2 c) model.elements }
      hrest hnamed hstill (elements ++ [markedElement w entry.2 c])
    refine ⟨gathered, ?_, fun name => ?_⟩
    · rw [List.foldl_cons, gather, hmade, List.filterMap_cons, hat]
      simp only [Option.toList_some]
      rw [hrun, List.append_assoc, List.singleton_append]
    · rw [hlookup, List.lookup_cons]
      by_cases heq : name = entry.1
      · have hnone : rest.lookup name = none := by
          cases hfound : rest.lookup name with
          | none => rfl
          | some id => exact absurd heq (hother _ (Table.mem_of_lookup hfound))
        rw [hnone, heq, beq_self_eq_true, Option.bind_none, Option.none_or, ← hname,
          Table.lookup_set_self, Option.bind_some, hat, Option.some_or]
      · rw [beq_false_of_ne heq, Table.lookup_set_of_ne (hname ▸ heq)]

/-- **Asking for all classes** gives their elements in order, and all are kept. -/
theorem elementsOf_of_new (h : model.WellFound w) (hnew : model.elements = []) :
    (model.elementsOf w).2 = model.found.filterMap (fun entry => elementAt? w entry.2) ∧
      ∀ name, (model.elementsOf w).1.elements.lookup name = model.element? w name := by
  obtain ⟨gathered, hrun, hlookup⟩ :=
    foldl_gather model h.nodup h.named (fun entry _ => by rw [hnew]; rfl) []
  change model.elementsOf w = _ at hrun
  rw [hrun]
  refine ⟨rfl, fun name => ?_⟩
  rw [hlookup, hnew, element?]
  exact Option.or_none

end LiveModel

/-! ## Sessions -/

/-- A session over a live model that has found its classes and made all their elements. -/
structure Surveyed (model : LiveModel) (s : Session) : Prop where
  session : s.model = .live model
  types : model.types.isSome = true
  wellFound : model.WellFound s.world
  kept : ∀ name, model.elements.lookup name = model.element? s.world name

namespace Query

variable {model : LiveModel} {s : Session}

/-- A scan that has been started is not started again. -/
theorem run_scan_of_types (hmodel : s.model = .live model) (h : model.types.isSome = true) :
    scan.run s = (.ok (), s) := by
  have hstarted : ¬ model.types.isNone = true := by
    rw [Option.isNone_iff_eq_none]
    exact Option.isSome_iff_ne_none.mp h
  have hsurvey : Surveying.scan.run ⟨model, s.world, s.reports⟩ =
      (.ok (), ⟨model, s.world, s.reports⟩) := by
    rw [Surveying.scan, Leaves.run_get_bind]
    simp only [if_neg hstarted]
    rfl
  rw [scan, Leaves.run_get_bind, hmodel]
  change ((Surveying.scan.run ⟨model, s.world, s.reports⟩).1,
    (⟨.live (Surveying.scan.run ⟨model, s.world, s.reports⟩).2.model,
      (Surveying.scan.run ⟨model, s.world, s.reports⟩).2.world,
      (Surveying.scan.run ⟨model, s.world, s.reports⟩).2.reports⟩ : Session)) = _
  rw [hsurvey, ← hmodel]

section

variable (h : Surveyed model s)

include h

theorem run_element?_of_surveyed (name : String) :
    (element? name).run s = (.ok (model.element? s.world name), s) := by
  rw [element?, Leaves.run_bind, run_scan_of_types h.session h.types]
  simp only [Leaves.run_get_bind, h.session, LiveModel.element?]
  cases hfound : model.found.lookup name with
  | none => rfl
  | some id =>
    obtain ⟨c, hc, hname⟩ := h.wellFound.named _ (Table.mem_of_lookup hfound)
    have hat : LiveModel.elementAt? s.world id = some (markedElement s.world id c) := by
      rw [LiveModel.elementAt?, hc, Option.map_some]
    have hkept := h.kept name
    rw [LiveModel.element?, hfound, Option.bind_some, hat] at hkept
    obtain rfl : c.qualifiedName = name := hname
    simp only [LiveModel.elementOf?_of_kept hc hkept, Option.bind_some, hat]
    rw [keep, Leaves.run_bind, ← h.session]
    rfl

theorem run_isAssignable_of_surveyed (element contract : Element) :
    (isAssignable element contract).run s =
      (.ok (model.isAssignable s.world element contract), s) := by
  rw [isAssignable, Leaves.run_get_bind, h.session]
  simp only
  rw [Leaves.run_bind, run_scan_of_types h.session h.types]
  simp only [Leaves.run_get_bind, h.session]
  rw [LiveModel.isAssignable, LiveModel.known, List.lookup_append]
  have hwalk := run_inherits (run_element?_of_surveyed h) element contract
  rw [supertypeCount, h.session] at hwalk
  cases model.found.lookup element.qualifiedName with
  | none => exact hwalk
  | some id =>
    cases (model.found.lookup contract.qualifiedName).or
        (model.contracts.lookup contract.qualifiedName) with
    | none => exact hwalk
    | some target => rfl

end

end Query

/-- A live model gives the answers that it has found. -/
theorem Surveyed.answers {model : LiveModel} {s : Session} (h : Surveyed model s) :
    AnswersAs (model.view s.world) s where
  element? name reports := Query.run_element?_of_surveyed (s := { s with reports })
    ⟨h.session, h.types, h.wellFound, h.kept⟩ name
  isAssignable element contract reports := Query.run_isAssignable_of_surveyed
    (s := { s with reports }) ⟨h.session, h.types, h.wellFound, h.kept⟩ element contract

/-! ## Marked classes -/

/-- A scan of live classes makes no elements. -/
theorem Surveying.untouched_elements : Untouched fun s => s.model.elements where
  importing _ _ := rfl
  types _ _ := rfl
  reports _ _ := rfl
  path _ _ := rfl

/-- Asking a live model for its marked classes makes it import its modules. -/
theorem Query.of_run_annotated_live {model : LiveModel} {s s' : Session}
    (hs : s.model = .live model) (hnew : model.elements = []) {markers : List String}
    {elements : List Element} (h : (annotated markers).run s = (.ok elements, s')) :
    ∃ imported, s'.model = .live imported ∧ (imported.WellFound s'.world →
      elements = imported.marked s'.world markers ∧
      ∀ name, imported.elements.lookup name = imported.element? s'.world name) := by
  have hscan : scan.run s = ((Surveying.scan.run ⟨model, s.world, s.reports⟩).1,
      ⟨.live (Surveying.scan.run ⟨model, s.world, s.reports⟩).2.model,
        (Surveying.scan.run ⟨model, s.world, s.reports⟩).2.world,
        (Surveying.scan.run ⟨model, s.world, s.reports⟩).2.reports⟩) := by
    rw [scan, Leaves.run_get_bind, hs]
    rfl
  have hmade : (Surveying.scan.run ⟨model, s.world, s.reports⟩).2.model.elements = [] :=
    (Surveying.untouched_elements.leaves_scan _).trans hnew
  rw [annotated, Leaves.run_bind, Query.elements, Leaves.run_bind, hscan] at h
  rcases hsurvey : Surveying.scan.run ⟨model, s.world, s.reports⟩ with ⟨result, survey⟩
  simp only [hsurvey] at h hmade
  cases result with
  | error e => cases (Prod.mk.inj h).1
  | ok u =>
    obtain ⟨helements, rfl⟩ := Prod.mk.inj h
    refine ⟨_, rfl, fun hfound => ?_⟩
    have hsame := survey.model.found_elementsOf survey.world
    have hwell : survey.model.WellFound survey.world :=
      ⟨hsame ▸ hfound.nodup, hsame ▸ hfound.named⟩
    obtain ⟨hgathered, hkept⟩ := LiveModel.elementsOf_of_new hwell hmade
    refine ⟨?_, fun name => (hkept name).trans ?_⟩
    · rw [LiveModel.marked, hsame, ← hgathered]
      exact (Except.ok.inj helements).symm
    · rw [LiveModel.element?, LiveModel.element?, hsame]

end Symbols

/-! ## Rounds over imported modules -/

namespace FinishedRound

open Symbols Registry

variable {r : FinishedRound} {model imported : LiveModel}

/-- The session once it is known which classes are marked. -/
def surveyed (r : FinishedRound) : Session :=
  ((Query.annotated r.processor.markers).run r.start).2

/-- A round learns which classes are marked, and then settles what to do with them. -/
theorem run_annotated (r : FinishedRound) : ∃ elements,
    (Query.annotated r.processor.markers).run r.start = (.ok elements, r.surveyed) ∧
      (Resolution.bindingsOf r.processor.markers elements).run r.surveyed =
        (.ok r.bindings, r.asked) := by
  obtain ⟨elements, s, hannotated, hresolved⟩ := Leaves.run_bind_eq_ok_iff.mp r.run_accepted
  obtain rfl : r.surveyed = s := by rw [surveyed, hannotated]
  exact ⟨elements, hannotated, hresolved⟩

/-- **A round over imported modules** accepts the marked classes that break no rule. -/
theorem bindings_eq_of_live (hmodel : r.start.model = .live model) (hnew : model.elements = [])
    (himported : r.surveyed.model = .live imported)
    (hfound : imported.WellFound r.surveyed.world) :
    r.bindings = (imported.marked r.surveyed.world r.processor.markers).filterMap fun e =>
      ((imported.view r.surveyed.world).verdict r.processor.markers e).toOption := by
  obtain ⟨elements, hannotated, hresolved⟩ := r.run_annotated
  obtain ⟨found, hmodel', hsurvey⟩ := Query.of_run_annotated_live hmodel hnew hannotated
  obtain rfl : found = imported := SymbolModel.live.inj (hmodel'.symm.trans himported)
  obtain ⟨rfl, hkept⟩ := hsurvey hfound
  cases htypes : found.types with
  | none =>
    -- A model that has found nothing accepts nothing.
    have hnone : found.marked r.surveyed.world r.processor.markers = [] := by
      rw [LiveModel.marked, LiveModel.found, htypes]
      rfl
    rw [hnone] at hresolved ⊢
    exact (Except.ok.inj (Prod.mk.inj hresolved).1).symm
  | some types =>
    have hsurveyed : Surveyed found r.surveyed :=
      ⟨himported, by rw [htypes]; rfl, hfound, hkept⟩
    rw [hsurveyed.answers.run_bindingsOf] at hresolved
    exact (Except.ok.inj (Prod.mk.inj hresolved).1).symm

end FinishedRound

end ProviderRegistry
