import ProviderRegistry.Proofs.Answering

/-!
# Questions in a row

A live model that has found its classes answers every question from these classes, whatever has
been asked before (`Ready.exists_run_ask`): a question makes elements and takes note of contracts,
but the elements that have been made are those of the classes, and the contracts are those that
markers name. Only whether a class is assignable can depend on the contracts known so far.
-/

namespace ProviderRegistry

open World

namespace Symbols

/-- A question to a symbol model. -/
inductive Question where
  | elements
  | element (name : String)
  | reference (name : String)
  | annotated (markers : List String)
  | isAssignable (element contract : Element)

namespace Question

/-- What a question is answered with. -/
def Answer : Question → Type
  | elements => List Element
  | element _ => Option Element
  | reference _ => Element
  | annotated _ => List Element
  | isAssignable _ _ => Bool

/-- Asks a question. -/
def ask : (q : Question) → Query q.Answer
  | elements => Query.elements
  | element name => Query.element? name
  | reference name => Query.reference name
  | annotated markers => Query.annotated markers
  | isAssignable e contract => Query.isAssignable e contract

/-- What the classes that a live model has found say to a question. -/
def answer (model : LiveModel) (w : World) : (q : Question) → q.Answer
  | elements => model.found.filterMap fun entry => LiveModel.elementAt? w entry.2
  | element name => model.element? w name
  | reference name => (model.element? w name).getD (.undeclared name)
  | annotated markers => model.marked w markers
  | isAssignable e contract => model.isAssignable w e contract

end Question

/-- The session after some questions, whether they were answered or not. -/
def Session.after (s : Session) (asked : List Question) : Session :=
  asked.foldl (fun s q => (q.ask.run s).2) s

namespace LiveModel

/-- The marker of a class that was found names a class as contract. -/
def Marks (model : LiveModel) (w : World) (name : String) (target : ClassId) : Prop :=
  ∃ entry ∈ model.found, ∃ c m d, w.class? entry.2 = some c ∧ c.marker = some m ∧
    m.value = .type target ∧ w.class? target = some d ∧ d.qualifiedName = name

/-- A model has found its classes. The elements that it has made are theirs, and the contracts
that it knows are those that their markers name. -/
structure Ready (model : LiveModel) (w : World) : Prop where
  types : model.types.isSome = true
  wellFound : model.WellFound w
  made : ∀ name e, model.elements.lookup name = some e → model.element? w name = some e
  marks : ∀ name target, model.contracts.lookup name = some target → model.Marks w name target

/-- A model is the other one with more elements made. -/
structure Makes (w : World) (model model' : LiveModel) : Prop where
  ready : model'.Ready w
  types : model'.types = model.types

variable {model model' : LiveModel} {w : World} {entry : String × ClassId}

theorem Makes.found (h : Makes w model model') : model'.found = model.found := by
  rw [LiveModel.found, h.types, LiveModel.found]

theorem Makes.trans {model'' : LiveModel} (h : Makes w model model')
    (h' : Makes w model' model'') : Makes w model model'' :=
  ⟨h'.ready, h'.types.trans h.types⟩

/-- A contract that is known after a marker has been read was known before, or is the one that
the marker names. -/
theorem of_lookup_contractsWith {marker : Option Marker} {name : String} {target : ClassId}
    (h : (model.contractsWith w marker).lookup name = some target) :
    model.contracts.lookup name = some target ∨ ∃ m d, marker = some m ∧ m.value = .type target ∧
      w.class? target = some d ∧ d.qualifiedName = name := by
  rw [contractsWith] at h
  cases marker with
  | none => exact .inl h
  | some m =>
    rw [Option.map_some, Option.getD_some, addContract] at h
    split at h
    next id hvalue =>
      split at h
      next d hd =>
        simp only [Table.setMissing] at h
        split at h
        · exact .inl h
        · rw [List.lookup_append, Option.or_eq_some_iff] at h
          refine h.imp_right fun h => ?_
          have hnew := h.2
          rw [List.lookup_cons] at hnew
          by_cases hname : name = d.qualifiedName
          · rw [hname, beq_self_eq_true] at hnew
            obtain rfl : id = target := Option.some.inj hnew
            exact ⟨m, d, rfl, hvalue, hd, hname.symm⟩
          · rw [beq_false_of_ne hname] at hnew
            cases hnew
      next => exact .inl h
    next => exact .inl h

namespace Ready

variable (h : model.Ready w)

include h

theorem lookup_found (hentry : entry ∈ model.found) :
    model.found.lookup entry.1 = some entry.2 :=
  (Table.lookup_eq_some_iff h.wellFound.nodup).mpr hentry

/-- **Making the element of a class** that was found gives the same at any time. -/
theorem exists_elementOf? (hentry : entry ∈ model.found) :
    ∃ model', model.elementOf? w entry.2 = (model', elementAt? w entry.2) ∧
      Makes w model model' := by
  obtain ⟨c, hc, hname⟩ := h.wellFound.named entry hentry
  have hat : elementAt? w entry.2 = some (markedElement w entry.2 c) := by
    rw [elementAt?, hc, Option.map_some]
  have helement : model.element? w entry.1 = elementAt? w entry.2 := by
    rw [element?, h.lookup_found hentry, Option.bind_some]
  cases hmade : model.elements.lookup c.qualifiedName with
  | some e =>
    refine ⟨model, ?_, h, rfl⟩
    rw [elementOf?_of_kept hc hmade, ← helement, ← hname, h.made _ _ hmade]
  | none =>
    rw [elementOf?_of_new hc hmade, hat]
    refine ⟨_, rfl, ⟨h.types, ⟨h.wellFound.nodup, h.wellFound.named⟩, fun name e he => ?_,
      fun name target htarget => ?_⟩, rfl⟩
    · by_cases heq : name = c.qualifiedName
      · subst heq
        rw [Table.lookup_set_self] at he
        exact (hname ▸ helement).trans (hat.trans he)
      · rw [Table.lookup_set_of_ne heq] at he
        exact h.made name e he
    · rcases of_lookup_contractsWith htarget with hold | ⟨m, d, hm, hvalue, hd, hdname⟩
      · exact h.marks name target hold
      · exact ⟨entry, hentry, c, m, d, hc, hm, hvalue, hd, hdname⟩

theorem exists_foldl_gather {items : Table String ClassId}
    (hitems : ∀ entry ∈ items, entry ∈ model.found) (elements : List Element) :
    ∃ model', items.foldl (gather w) (model, elements) =
        (model', elements ++ items.filterMap fun entry => elementAt? w entry.2) ∧
      Makes w model model' := by
  induction items generalizing model elements with
  | nil => exact ⟨model, by rw [List.filterMap_nil, List.append_nil]; rfl, h, rfl⟩
  | cons entry rest ih =>
    obtain ⟨hentry, hrest⟩ := List.forall_mem_cons.mp hitems
    obtain ⟨next, hnext, hmakes⟩ := h.exists_elementOf? hentry
    obtain ⟨model', hfold, hmakes'⟩ := ih hmakes.ready (fun e he => hmakes.found ▸ hrest e he)
      (elements ++ (elementAt? w entry.2).toList)
    refine ⟨model', ?_, hmakes.trans hmakes'⟩
    rw [List.foldl_cons, gather, hnext]
    refine hfold.trans ?_
    rw [List.append_assoc, List.filterMap_cons]
    cases elementAt? w entry.2 <;> rfl

/-- Making the elements of all classes gives the same at any time. -/
theorem exists_elementsOf : ∃ model', model.elementsOf w =
    (model', model.found.filterMap fun entry => elementAt? w entry.2) ∧ Makes w model model' :=
  h.exists_foldl_gather (fun _ h => h) []

end Ready

theorem Makes.element?_eq (h : Makes w model model') (name : String) :
    model'.element? w name = model.element? w name := by
  rw [element?, h.found, element?]

end LiveModel

/-! ## Sessions -/

/-- A session is another one in which more elements have been made. -/
def Session.Makes (model : LiveModel) (s s' : Session) : Prop :=
  ∃ model', s' = { s with model := .live model' } ∧ LiveModel.Makes s.world model model'

section

variable {model model' : LiveModel} {s s' : Session}

theorem Session.Makes.refl (hs : s.model = .live model) (h : model.Ready s.world) :
    s.Makes model s := by
  refine ⟨model, ?_, h, rfl⟩
  rw [← hs]

namespace Query

/-- Looking up a class that was found makes its element. -/
theorem run_element?_of_found {name : String} {id : ClassId} (hs : s.model = .live model)
    (htypes : model.types.isSome = true) (hfound : model.found.lookup name = some id) :
    (element? name).run s = (.ok (model.elementOf? s.world id).2,
      { s with model := .live (model.elementOf? s.world id).1 }) := by
  rw [element?, Leaves.run_bind, run_scan_of_types hs htypes]
  simp only [Leaves.run_get_bind, hs, hfound]
  rfl

theorem exists_run_element? (hmakes : s.Makes model s') (name : String) :
    ∃ s'', (element? name).run s' = (.ok (model.element? s.world name), s'') ∧
      s.Makes model s'' := by
  obtain ⟨model', rfl, hmodel'⟩ := hmakes
  rw [← hmodel'.element?_eq, LiveModel.element?]
  cases hfound : model'.found.lookup name with
  | none =>
    rw [element?, Leaves.run_bind, run_scan_of_types rfl hmodel'.ready.types]
    simp only [Leaves.run_get_bind, hfound]
    exact ⟨_, rfl, model', rfl, hmodel'⟩
  | some id =>
    obtain ⟨next, hnext, hmakes⟩ := hmodel'.ready.exists_elementOf? (Table.mem_of_lookup hfound)
    rw [run_element?_of_found rfl hmodel'.ready.types hfound]
    simp only [hnext]
    exact ⟨_, rfl, next, rfl, hmodel'.trans hmakes⟩

theorem exists_run_reference (hmakes : s.Makes model s') (name : String) :
    ∃ s'', (reference name).run s' =
        (.ok ((model.element? s.world name).getD (.undeclared name)), s'') ∧
      s.Makes model s'' := by
  obtain ⟨s'', hrun, hs''⟩ := exists_run_element? hmakes name
  rw [reference, Leaves.run_bind, hrun]
  exact ⟨s'', rfl, hs''⟩

variable (hs : s.model = .live model) (h : model.Ready s.world)

include hs h

theorem exists_run_elements :
    ∃ s', elements.run s = (.ok (model.found.filterMap fun entry =>
        LiveModel.elementAt? s.world entry.2), s') ∧ s.Makes model s' := by
  obtain ⟨model', hmodel', hmakes⟩ := h.exists_elementsOf
  rw [elements, Leaves.run_bind, run_scan_of_types hs h.types]
  simp only [Leaves.run_get_bind, hs, hmodel']
  exact ⟨_, rfl, model', rfl, hmakes⟩

theorem exists_run_annotated (markers : List String) :
    ∃ s', (annotated markers).run s = (.ok (model.marked s.world markers), s') ∧
      s.Makes model s' := by
  obtain ⟨s', hrun, hs'⟩ := exists_run_elements hs h
  rw [annotated, Leaves.run_bind, hrun]
  exact ⟨s', rfl, hs'⟩

/-- Whether a class is assignable is answered with the contracts that are known by now. -/
theorem exists_run_isAssignable (element contract : Element) :
    ∃ s', (isAssignable element contract).run s =
      (.ok (model.isAssignable s.world element contract), s') ∧ s.Makes model s' := by
  have hmakes := Session.Makes.refl hs h
  obtain ⟨s', hwalk, hmakes'⟩ := exists_run_inherits (I := s.Makes model)
    (fun name _ hs => exists_run_element? hs name) element contract hmakes
  rw [isAssignable, Leaves.run_get_bind, hs]
  simp only
  rw [Leaves.run_bind, run_scan_of_types hs h.types]
  simp only [Leaves.run_get_bind, hs]
  rw [supertypeCount, hs] at hwalk
  rw [LiveModel.isAssignable, LiveModel.known, List.lookup_append]
  cases model.found.lookup element.qualifiedName with
  | none => exact ⟨s', hwalk, hmakes'⟩
  | some id =>
    cases (model.found.lookup contract.qualifiedName).or
        (model.contracts.lookup contract.qualifiedName) with
    | none => exact ⟨s', hwalk, hmakes'⟩
    | some target => exact ⟨s, rfl, hmakes⟩

end Query

section

variable (hs : s.model = .live model) (h : model.Ready s.world)

include hs h

/-- **A question to classes that have been found** is answered from them. -/
theorem exists_run_ask (q : Question) :
    ∃ s', q.ask.run s = (.ok (q.answer model s.world), s') ∧ s.Makes model s' := by
  have hmakes := Session.Makes.refl hs h
  cases q with
  | elements => exact Query.exists_run_elements hs h
  | element name => exact Query.exists_run_element? hmakes name
  | reference name => exact Query.exists_run_reference hmakes name
  | annotated markers => exact Query.exists_run_annotated hs h markers
  | isAssignable element contract => exact Query.exists_run_isAssignable hs h element contract

/-- Questions change nothing but what has been made of the classes. -/
theorem makes_after (asked : List Question) : s.Makes model (s.after asked) := by
  induction asked generalizing model s with
  | nil => exact .refl hs h
  | cons q rest ih =>
    obtain ⟨s', hrun, next, rfl, hnext⟩ := exists_run_ask hs h q
    obtain ⟨model', hafter, hmodel'⟩ := ih (s := { s with model := .live next }) rfl hnext.ready
    refine ⟨model', ?_, hnext.trans hmodel'⟩
    rw [Session.after, List.foldl_cons, hrun]
    exact hafter

end

/-! ## The first question -/

/-- **A question makes a model scan first**, and goes on with what that has found. -/
theorem exists_run_scan_bind (q : Question) : ∃ rest : Query q.Answer, ∀ s model,
    s.model = .live model → q.ask.run s = (Query.scan >>= fun _ => rest).run s := by
  have helement (name : String) :
      ∃ rest, Query.element? name = Query.scan >>= fun _ => rest := ⟨_, rfl⟩
  have helements : ∃ rest, Query.elements = Query.scan >>= fun _ => rest := ⟨_, rfl⟩
  cases q with
  | elements =>
    obtain ⟨rest, hrest⟩ := helements
    exact ⟨rest, fun s _ _ => congrArg (·.run s) hrest⟩
  | element name =>
    obtain ⟨rest, hrest⟩ := helement name
    exact ⟨rest, fun s _ _ => congrArg (·.run s) hrest⟩
  | reference name =>
    obtain ⟨rest, hrest⟩ := helement name
    refine ⟨rest >>= fun e => pure (e.getD (.undeclared name)), fun s _ _ => ?_⟩
    rw [Question.ask, Query.reference, hrest, bind_assoc]
    rfl
  | annotated markers =>
    obtain ⟨rest, hrest⟩ := helements
    refine ⟨rest >>= fun found => pure (found.filter fun e => (e.annotation? markers).isSome),
      fun s _ _ => ?_⟩
    rw [Question.ask, Query.annotated, hrest, bind_assoc]
    rfl
  | isAssignable element contract =>
    exact ⟨_, fun s model hs => by
      change (Query.isAssignable element contract).run s = _
      rw [Query.isAssignable, Leaves.run_get_bind, hs]
      rfl⟩

/-- When the scan raises nothing, the question is as good as asked afterwards. -/
theorem run_ask_of_scan {scanned : Session} (hs : s.model = .live model)
    (hscan : Query.scan.run s = (.ok (), scanned)) (hscanned : scanned.model = .live model')
    (h : model'.types.isSome = true) (q : Question) : q.ask.run s = q.ask.run scanned := by
  obtain ⟨rest, hrest⟩ := exists_run_scan_bind q
  rw [hrest s model hs, hrest scanned model' hscanned, Leaves.run_bind, Leaves.run_bind, hscan,
    Query.run_scan_of_types hscanned h]

/-- When the scan raises an exception, so does the question. -/
theorem run_ask_of_scan_error {scanned : Session} {e : Raised} (hs : s.model = .live model)
    (hscan : Query.scan.run s = (.error e, scanned)) (q : Question) :
    q.ask.run s = (.error e, scanned) := by
  obtain ⟨rest, hrest⟩ := exists_run_scan_bind q
  rw [hrest s model hs, Leaves.run_bind, hscan]

end

end Symbols

end ProviderRegistry
