import ProviderRegistry.Proofs.Answering
import ProviderRegistry.Proofs.Interchanging
import ProviderRegistry.Proofs.Linearising
import ProviderRegistry.Proofs.Walking
import ProviderRegistry.World.Text

/-!
# Sources read and sources imported

A round over sources and a round over the modules that they make up give the same entries and
the same files where importing has made of every class what its source says (`Reflects`): the
same classes in the same order, each with the same bases, as concrete as its source and with the
marker that is written there (`FinishedRound.models_agree`). The walk over the names of bases and
the linearisations of the classes that have been made then say the same about inheritance
(`Reflects.derives_iff`).

The two models differ over a class that is concrete only thanks to one of its bases: the sources
do not see that a base defines what another base leaves open (`models_differ`).
-/

namespace ProviderRegistry

open Symbols World Registry Resolution

/-! ## One class in two models -/

namespace Resolution

/-- The contract that the marker of a class names: the name to look for, and what stands for the
contract if nothing is found. -/
def namedContract? (markers : List String) (e : Element) : Option (String × Element) :=
  match (e.annotation? markers).bind (·.value? "value") with
  | some (.literal (.str name)) => some (name, .undeclared name)
  | some (.type contract) => some (contract.qualifiedName, contract)
  | _ => none

end Resolution

theorem Symbols.View.contract?_eq (v : View) (markers : List String) (e : Element) :
    v.contract? markers e = (namedContract? markers e).map fun named =>
      (v.element? named.1).getD named.2 := by
  rw [View.contract?, namedContract?]
  generalize (e.annotation? markers).bind (·.value? "value") = value
  rcases value with _ | (literal | contract)
  · rfl
  · cases literal <;> rfl
  · rfl

/-- Two elements say the same of one class, as far as rounds ask. -/
structure Element.Alike (markers : List String) (e l : Element) : Prop where
  same : e.Same l
  concrete : isConcrete l = isConcrete e
  marked : (l.annotation? markers).isSome = (e.annotation? markers).isSome
  factory : requestsFactory markers l = requestsFactory markers e
  name : (namedContract? markers l).map (·.1) = (namedContract? markers e).map (·.1)
  contract : ∀ named ∈ namedContract? markers e, ∀ named' ∈ namedContract? markers l,
    named.2.Same named'.2

instance (markers : List String) (e l : Element) : Decidable (e.Alike markers l) :=
  decidable_of_iff (e.Same l ∧ isConcrete l = isConcrete e ∧
      (l.annotation? markers).isSome = (e.annotation? markers).isSome ∧
      requestsFactory markers l = requestsFactory markers e ∧
      (namedContract? markers l).map (·.1) = (namedContract? markers e).map (·.1) ∧
      ∀ named ∈ namedContract? markers e, ∀ named' ∈ namedContract? markers l,
        named.2.Same named'.2)
    ⟨fun ⟨h₁, h₂, h₃, h₄, h₅, h₆⟩ => ⟨h₁, h₂, h₃, h₄, h₅, h₆⟩,
      fun h => ⟨h.same, h.concrete, h.marked, h.factory, h.name, h.contract⟩⟩

/-- A class was made after its bases, and is linearised as they are. -/
structure World.Linearises (classes : Classes) (id : ClassId) (c : LiveClass) : Prop where
  before : ∀ b ∈ c.bases, b < id
  order : (ancestors c.bases (c.bases.map classes.orderOf)).map (id :: ·) = .ok c.order

instance (classes : Classes) (id : ClassId) (c : LiveClass) : Decidable (Linearises classes id c) :=
  decidable_of_iff ((∀ b ∈ c.bases, b < id) ∧
      (ancestors c.bases (c.bases.map classes.orderOf)).map (id :: ·) = .ok c.order)
    ⟨fun ⟨h, h'⟩ => ⟨h, h'⟩, fun h => ⟨h.before, h.order⟩⟩

namespace World.Linearises

variable {classes : Classes} {id a b : ClassId} {c : LiveClass} (hc : classes[id]? = some c)
  (h : Linearises classes id c)

include hc h

omit hc in
theorem exists_above : ∃ above, ancestors c.bases (c.bases.map classes.orderOf) = .ok above ∧
    c.order = id :: above := by
  have horder := h.order
  cases hrun : ancestors c.bases (c.bases.map classes.orderOf) with
  | error heads =>
    rw [hrun] at horder
    cases horder
  | ok above =>
    rw [hrun] at horder
    exact ⟨above, rfl, (Except.ok.inj horder).symm⟩

theorem derives_self : classes.derives id id = true := by
  obtain ⟨above, -, horder⟩ := h.exists_above
  rw [Classes.derives, List.contains_iff_mem, Classes.orderOf, hc, Option.map_some, Option.getD_some,
    horder]
  exact List.mem_cons_self

theorem derives_of_mem_bases (hb : b ∈ c.bases) : classes.derives id b = true := by
  obtain ⟨above, habove, horder⟩ := h.exists_above
  rw [Classes.derives, List.contains_iff_mem, Classes.orderOf, hc, Option.map_some, Option.getD_some,
    horder]
  exact List.mem_cons_of_mem _ ((bases_sublist_of_ancestors habove).subset hb)

theorem derives_of_derives (hb : b ∈ c.bases) (ha : classes.derives b a = true) :
    classes.derives id a = true := by
  obtain ⟨above, habove, horder⟩ := h.exists_above
  rw [Classes.derives, List.contains_iff_mem] at ha ⊢
  rw [Classes.orderOf, hc, Option.map_some, Option.getD_some, horder]
  exact List.mem_cons_of_mem _
    ((sublist_of_ancestors habove _ (List.mem_map_of_mem hb)).subset ha)

theorem of_derives (ha : classes.derives id a = true) :
    a = id ∨ a ∈ c.bases ∨ ∃ b ∈ c.bases, classes.derives b a = true := by
  obtain ⟨above, habove, horder⟩ := h.exists_above
  rw [Classes.derives, List.contains_iff_mem, Classes.orderOf, hc, Option.map_some, Option.getD_some,
    horder] at ha
  rcases List.mem_cons.mp ha with ha | ha
  · exact .inl ha
  · rcases exists_of_mem_ancestors habove ha with ⟨order, horder, ha⟩ | ha
    · obtain ⟨b, hb, rfl⟩ := List.mem_map.mp horder
      exact .inr (.inr ⟨b, hb, List.contains_iff_mem.mpr ha⟩)
    · exact .inr (.inl ha)

end World.Linearises

section

variable (markers : List String) (scanned : StaticModel) (imported : LiveModel) (w : World)

/-- Importing has made of a class what its source says: an element says the same of both, and the
known classes among the bases are those that the source names. Bases and contracts that sources
do not declare lead nowhere, and nothing counts as a base without being one. -/
structure Mirrors (e : Element) (id : ClassId) (c : LiveClass) : Prop where
  class? : w.class? id = some c
  alike : e.Alike markers (markedElement w id c)
  bases : ∀ t ∈ imported.known, t.1 ∈ e.supertypes ↔ t.2 ∈ c.bases
  linearises : Linearises w.classes id c
  contract : ∀ named ∈ namedContract? markers e, named.2.qualifiedName = named.1 ∧
    (imported.known.lookup named.1).isSome = true
  undeclared : ∀ name ∈ e.supertypes ++ ((namedContract? markers e).map (·.1)).toList,
    scanned.found.lookup name = none → scanned.element? name = none
  foreign : ∀ b ∈ c.bases, b ∉ imported.found.map (·.2) → ∀ t ∈ imported.known,
    w.classes.derives b t.2 = true → b = t.2
  nominal : ∀ t ∈ imported.known, w.classes.matchesMembers id t.2 = true →
    w.classes.derives id t.2 = true

/-- Importing has found the classes that the sources declare, in their order, and has made of
each what its source says. -/
structure Reflects : Prop where
  classes : List.Forall₂ (fun declared made => made.1 = declared.1 ∧
    ∃ c, Mirrors markers scanned imported w declared.2 made.2 c) scanned.found imported.found
  named : ∀ t ∈ imported.known, (w.class? t.2).map (·.qualifiedName) = some t.1

instance (e : Element) (id : ClassId) : Decidable (∃ c, Mirrors markers scanned imported w e id c) :=
  decidable_of_iff (∃ c ∈ w.class? id, e.Alike markers (markedElement w id c) ∧
      (∀ t ∈ imported.known, t.1 ∈ e.supertypes ↔ t.2 ∈ c.bases) ∧ Linearises w.classes id c ∧
      (∀ named ∈ namedContract? markers e, named.2.qualifiedName = named.1 ∧
        (imported.known.lookup named.1).isSome = true) ∧
      (∀ name ∈ e.supertypes ++ ((namedContract? markers e).map (·.1)).toList,
        scanned.found.lookup name = none → scanned.element? name = none) ∧
      (∀ b ∈ c.bases, b ∉ imported.found.map (·.2) → ∀ t ∈ imported.known,
        w.classes.derives b t.2 = true → b = t.2) ∧
      ∀ t ∈ imported.known, w.classes.matchesMembers id t.2 = true →
        w.classes.derives id t.2 = true)
    ⟨fun ⟨c, hc, h₁, h₂, h₃, h₄, h₅, h₆, h₇⟩ => ⟨c, hc, h₁, h₂, h₃, h₄, h₅, h₆, h₇⟩,
      fun ⟨c, h⟩ => ⟨c, h.class?, h.alike, h.bases, h.linearises, h.contract, h.undeclared,
        h.foreign, h.nominal⟩⟩

instance : Decidable (Reflects markers scanned imported w) :=
  decidable_of_iff (List.Forall₂ (fun declared made => made.1 = declared.1 ∧
      ∃ c, Mirrors markers scanned imported w declared.2 made.2 c) scanned.found imported.found ∧
      ∀ t ∈ imported.known, (w.class? t.2).map (·.qualifiedName) = some t.1)
    ⟨fun ⟨h, h'⟩ => ⟨h, h'⟩, fun h => ⟨h.classes, h.named⟩⟩

end

namespace Reflects

variable {markers : List String} {scanned : StaticModel} {imported : LiveModel} {w : World}
  (h : Reflects markers scanned imported w)

include h

/-! ## Names -/

theorem map_fst : imported.found.map (·.1) = scanned.found.map (·.1) := by
  have hclasses := h.classes
  generalize imported.found = made, scanned.found = declared at hclasses ⊢
  induction hclasses with
  | nil => rfl
  | cons hpq _ ih => rw [List.map_cons, List.map_cons, hpq.1, ih]

/-- A class that was found is declared under its name, -/
theorem exists_declared {name : String} {id : ClassId} (hid : imported.found.lookup name = some id) :
    ∃ e c, scanned.found.lookup name = some e ∧ Mirrors markers scanned imported w e id c := by
  have hpairs : Table.Pairs (fun e id => ∃ c, Mirrors markers scanned imported w e id c)
    scanned.found imported.found := h.classes
  rcases hpairs.lookup name with ⟨-, hnone⟩ | ⟨e, id', he, hid', c, hm⟩
  · rw [hnone] at hid
    cases hid
  · obtain rfl := Option.some.inj (hid'.symm.trans hid)
    exact ⟨e, c, he, hm⟩

/-- and one that is declared was found. -/
theorem exists_found {name : String} {e : Element} (he : scanned.found.lookup name = some e) :
    ∃ id c, imported.found.lookup name = some id ∧ Mirrors markers scanned imported w e id c := by
  have hpairs : Table.Pairs (fun e id => ∃ c, Mirrors markers scanned imported w e id c)
    scanned.found imported.found := h.classes
  obtain ⟨id, hid, c, hm⟩ := hpairs.of_lookup he
  exact ⟨id, c, hid, hm⟩

omit h in
theorem lookup_known {name : String} {id : ClassId} (hid : imported.found.lookup name = some id) :
    imported.known.lookup name = some id := by
  rw [LiveModel.known, List.lookup_append, hid, Option.some_or]

/-- A class is known by one name. -/
theorem known_unique {name name' : String} {id : ClassId}
    (hid : imported.known.lookup name = some id) (hid' : imported.known.lookup name' = some id) :
    name = name' := by
  have hname := h.named _ (Table.mem_of_lookup hid)
  rw [h.named _ (Table.mem_of_lookup hid')] at hname
  exact (Option.some.inj hname).symm

variable (hkeyed : scanned.found.Keyed Element.qualifiedName)

include hkeyed

theorem wellFound : imported.WellFound w where
  nodup := by
    rw [h.map_fst]
    exact hkeyed.nodup
  named entry hentry := Option.map_eq_some_iff.mp (h.named entry (List.mem_append_left _ hentry))

/-! ## Inheritance -/

variable {e : Element} {id : ClassId} {c : LiveClass} {target : String} {contract : ClassId}

theorem derives_of_reaches (hm : Mirrors markers scanned imported w e id c)
    (hid : imported.found.lookup e.qualifiedName = some id)
    (hcontract : imported.known.lookup target = some contract)
    (hreaches : Reaches scanned.element? target e) : w.classes.derives id contract = true := by
  induction hreaches generalizing id c with
  | self hname =>
    rw [← hname, lookup_known hid] at hcontract
    obtain rfl := Option.some.inj hcontract
    exact hm.linearises.derives_self hm.class?
  | base hmem =>
    exact hm.linearises.derives_of_mem_bases hm.class?
      ((hm.bases _ (Table.mem_of_lookup hcontract)).mp hmem)
  | @up e parent name hmem hparent _ ih =>
    cases hdeclared : scanned.found.lookup name with
    | none =>
      rw [hm.undeclared name (List.mem_append_left _ hmem) hdeclared] at hparent
      cases hparent
    | some e' =>
      obtain rfl : e' = parent := by
        rw [StaticModel.element?, StaticModel.lookUp, hdeclared] at hparent
        exact Option.some.inj hparent
      obtain ⟨id', c', hid', hm'⟩ := h.exists_found hdeclared
      obtain rfl := hkeyed.of_lookup hdeclared
      have hbase := (hm.bases _ (Table.mem_of_lookup (lookup_known hid'))).mp hmem
      exact hm.linearises.derives_of_derives hm.class? hbase (ih hm' hid')

theorem reaches_of_derives (hm : Mirrors markers scanned imported w e id c)
    (hid : imported.found.lookup e.qualifiedName = some id)
    (hcontract : imported.known.lookup target = some contract)
    (hderives : w.classes.derives id contract = true) : Reaches scanned.element? target e := by
  -- By induction on the number of the class, since bases are made first.
  induction id using Nat.strong_induction_on generalizing e c with
  | _ id ih =>
    have hmem := Table.mem_of_lookup hcontract
    rcases hm.linearises.of_derives hm.class? hderives with rfl | hbase | ⟨b, hb, hderives⟩
    · exact .self (h.known_unique (lookup_known hid) hcontract)
    · exact .base ((hm.bases _ hmem).mpr hbase)
    · by_cases hfound : b ∈ imported.found.map (·.2)
      · obtain ⟨⟨name, b'⟩, hentry, rfl⟩ := List.mem_map.mp hfound
        have hlookup := (Table.lookup_eq_some_iff (h.wellFound hkeyed).nodup).mpr hentry
        obtain ⟨e', c', he', hm'⟩ := h.exists_declared hlookup
        obtain rfl := hkeyed.of_lookup he'
        refine .up ((hm.bases _ (List.mem_append_left _ hentry)).mpr hb) ?_
          (ih _ (hm.linearises.before _ hb) hm' hlookup hderives)
        rw [StaticModel.element?, StaticModel.lookUp, he']
        rfl
      · obtain rfl := hm.foreign b hb hfound _ hmem hderives
        exact .base ((hm.bases _ hmem).mpr hb)

/-- **Linearisations and walks over the names of bases agree** about what inherits from what. -/
theorem derives_iff (hm : Mirrors markers scanned imported w e id c)
    (hid : imported.found.lookup e.qualifiedName = some id)
    (hcontract : imported.known.lookup target = some contract) :
    w.classes.derives id contract = true ↔ Reaches scanned.element? target e :=
  ⟨h.reaches_of_derives hkeyed hm hid hcontract, h.derives_of_reaches hkeyed hm hid hcontract⟩

theorem isAssignable_eq {k k' : Element} (hm : Mirrors markers scanned imported w e id c)
    (hid : imported.found.lookup e.qualifiedName = some id)
    (hcontract : imported.known.lookup k.qualifiedName = some contract)
    (hname : k'.qualifiedName = k.qualifiedName) :
    imported.isAssignable w (markedElement w id c) k' = scanned.inherits e k := by
  have hsubtype : imported.isAssignable w (markedElement w id c) k' =
      w.classes.isSubtype id contract := by
    rw [LiveModel.isAssignable, hm.alike.same.qualifiedName, hid, hname, hcontract]
  rw [hsubtype, Bool.eq_iff_iff, scanned.inherits_iff_reaches, ← h.derives_iff hkeyed hm hid hcontract,
    Classes.isSubtype, Bool.or_eq_true, or_iff_left_iff_imp]
  exact hm.nominal _ (Table.mem_of_lookup hcontract)

/-! ## Resolution -/

/-- Both models find the same contract under the name that a marker gives. -/
theorem contract_same (hm : Mirrors markers scanned imported w e id c)
    {named named' : String × Element} (hnamed : namedContract? markers e = some named)
    (hname : named'.1 = named.1) (hsame : named.2.Same named'.2) :
    ((scanned.element? named.1).getD named.2).Same
        ((imported.element? w named'.1).getD named'.2) ∧
      ((scanned.element? named.1).getD named.2).qualifiedName = named.1 := by
  rw [hname, LiveModel.element?]
  cases hdeclared : scanned.found.lookup named.1 with
  | some k =>
    obtain ⟨id', c', hid', hm'⟩ := h.exists_found hdeclared
    have hfound : scanned.element? named.1 = some k := by
      rw [StaticModel.element?, StaticModel.lookUp, hdeclared]
      rfl
    rw [hid', hfound, Option.bind_some, LiveModel.elementAt?, hm'.class?]
    exact ⟨hm'.alike.same, (hkeyed.of_lookup hdeclared).symm⟩
  | none =>
    have hmade : imported.found.lookup named.1 = none := by
      cases hid' : imported.found.lookup named.1 with
      | none => rfl
      | some id' =>
        obtain ⟨e', c', he', -⟩ := h.exists_declared hid'
        rw [hdeclared] at he'
        cases he'
    have hmem : named.1 ∈ ((namedContract? markers e).map (·.1)).toList := by
      rw [hnamed]
      exact List.mem_singleton.mpr rfl
    rw [hm.undeclared _ (List.mem_append_right _ hmem) hdeclared, hmade]
    exact ⟨hsame, (hm.contract _ hnamed).1⟩

/-- Both models accept a class for the same contract, or reject it. -/
theorem verdict_same (hm : Mirrors markers scanned imported w e id c)
    (hid : imported.found.lookup e.qualifiedName = some id) :
    Option.Rel Binding.Same (scanned.view.verdict markers e).toOption
      ((imported.view w).verdict markers (markedElement w id c)).toOption := by
  rw [View.verdict, View.verdict, View.contract?_eq, View.contract?_eq, hm.alike.concrete]
  by_cases hconcrete : (!isConcrete e) = true
  · rw [if_pos hconcrete, if_pos hconcrete]
    exact .none
  · rw [if_neg hconcrete, if_neg hconcrete]
    have hsame := hm.alike.name
    cases hnamed : namedContract? markers e with
    | none =>
      rw [hnamed, Option.map_none, Option.map_eq_none_iff] at hsame
      rw [hsame]
      exact .none
    | some named =>
      rw [hnamed, Option.map_some, Option.map_eq_some_iff] at hsame
      obtain ⟨named', hnamed', hsame⟩ := hsame
      rw [hnamed']
      obtain ⟨hk, hname⟩ := h.contract_same hkeyed hm hnamed hsame
        (hm.alike.contract _ hnamed _ hnamed')
      obtain ⟨contract, hknown⟩ := Option.isSome_iff_exists.mp (hm.contract _ hnamed).2
      have hassignable := h.isAssignable_eq hkeyed hm hid (hname ▸ hknown) hk.qualifiedName
      change Option.Rel Binding.Same
        (if scanned.inherits e ((scanned.element? named.1).getD named.2) = true then
          .ok ⟨_, e, requestsFactory markers e⟩ else .error _ : Except String Binding).toOption
        (if imported.isAssignable w (markedElement w id c)
            ((imported.element? w named'.1).getD named'.2) = true then
          .ok ⟨_, _, requestsFactory markers (markedElement w id c)⟩
          else .error _ : Except String Binding).toOption
      rw [hassignable]
      split
      · exact .some ⟨hk, hm.alike.same.qualifiedName, hm.alike.factory⟩
      · exact .none

/-- **Both models accept the same providers**, in the same order. -/
theorem bindings_same : List.Forall₂ Binding.Same (acceptedBindings scanned markers)
    ((imported.marked w markers).filterMap fun e =>
      ((imported.view w).verdict markers e).toOption) := by
  have hclasses : List.Forall₂ (fun e l => ∃ id c, l = markedElement w id c ∧
      Mirrors markers scanned imported w e id c ∧
        imported.found.lookup e.qualifiedName = some id)
      (scanned.found.map (·.2)) (imported.found.filterMap fun entry =>
        LiveModel.elementAt? w entry.2) := by
    have hdeclared := (List.forall₂_and_left _ _).mpr ⟨hkeyed.key, h.classes⟩
    have hmade := (List.forall₂_and_left _ _).mpr
      ⟨fun made => (Table.lookup_eq_some_iff (h.wellFound hkeyed).nodup).mpr, hdeclared.flip⟩
    rw [← List.filterMap_eq_map]
    refine List.rel_filterMap (fun declared made hpair => ?_) hmade.flip
    obtain ⟨hid, hkey, hname, c, hm⟩ := hpair
    rw [LiveModel.elementAt?, hm.class?]
    exact .some ⟨made.2, c, rfl, hm, hkey ▸ hname ▸ hid⟩
  rw [acceptedBindings, StaticModel.marked, LiveModel.marked]
  refine List.rel_filterMap (fun e l hel => ?_) (List.rel_filter (fun e l hel => ?_) hclasses)
  · obtain ⟨id, c, rfl, hm, hid⟩ := hel
    exact h.verdict_same hkeyed hm hid
  · obtain ⟨id, c, rfl, hm, -⟩ := hel
    simp only [hm.alike.marked]

end Reflects

/-! ## Rounds -/

namespace FinishedRound

variable {r l : FinishedRound} {scanned : StaticModel} {imported : LiveModel}

/-- A round over sources has scanned them once its marked classes are known, -/
theorem exists_scanned {model : StaticModel} (hmodel : r.start.model = .static model) :
    ∃ scanned reports, r.surveyed.model = .static scanned ∧
      model.scan r.start.world.files r.start.reports = (scanned, reports, .ok ()) := by
  obtain ⟨elements, hannotated, -⟩ := r.run_annotated
  obtain ⟨scanned, reports, hscan, -, hsurveyed⟩ := Query.of_run_annotated hmodel hannotated
  exact ⟨scanned, reports, by rw [hsurveyed], hscan⟩

/-- and one over modules has imported them. -/
theorem exists_imported {model : LiveModel} (hmodel : l.start.model = .live model)
    (hnew : model.elements = []) : ∃ imported, l.surveyed.model = .live imported := by
  obtain ⟨elements, hannotated, -⟩ := l.run_annotated
  obtain ⟨imported, himported, -⟩ := Query.of_run_annotated_live hmodel hnew hannotated
  exact ⟨imported, himported⟩

end FinishedRound

/-! ### One package, read and imported -/

/-- The characters of a module's text, line by line. The runs below are evaluated on this form,
since a long text is slow to take apart. -/
theorem toList_programText (body : List Statement) : (programText body).toList =
    (["import abc", "import enum", "import typing", "",
      "from services import service_provider", ""] ++ body.flatMap (·.lines)).flatMap
        fun line => line.toList ++ ['\n'] := by
  rw [programText, String.toList_join, List.flatMap_map]
  simp only [String.toList_append]
  rfl

def packageRoot : Path := ⟨.none, ["src"]⟩

/-- A world with a package of some statements. -/
def packageWorld (body : List Statement) : World :=
  let bytes := Text.utf8Bytes (programText body).toList
  { World.new ⟨[], [(["src"], .directory), (["src", "w"], .directory),
      (["src", "w", "__init__.py"], .file bytes)]⟩ with programs := [(bytes, body)] }

def packageOutput : Output where
  classOutput := ⟨.none, ["o"]⟩
  sourceOutput := ⟨.none, ["o"]⟩
  servicesDir := Naming.servicesDir
  encoding := "utf-8"

def packageProcessor : Processor := ⟨[liveMarkerName], ⟨"g", ""⟩⟩

/-- A session over the package, whose sources are to be read or imported. -/
def packageSession (kind : SymbolModel.Kind) (body : List Statement) : Session where
  model := .create {} kind [packageRoot] ["w"]
  world := packageWorld body

/-- What a round over the package gives and says. -/
def packageOutcome? (kind : SymbolModel.Kind) (body : List Statement) :
    Option (List Entry × List Path × List String) :=
  (FinishedRound.run? packageProcessor packageOutput (packageSession kind body)).map fun r =>
    (r.outcome.entries, r.outcome.generatedSources, r.outcome.diagnostics.map (·.message))

/-- The session of such a round once it is known which classes are marked. -/
def packageSurveyed (kind : SymbolModel.Kind) (body : List Statement) : Session :=
  ((Query.annotated packageProcessor.markers).run (packageSession kind body)).2

/-- A round over the package, and what it gives and says. -/
structure PackageRound (kind : SymbolModel.Kind) (body : List Statement) (entries : List Entry)
    (modules : List Path) (messages : List String) (r : FinishedRound) : Prop where
  processor : r.processor = packageProcessor
  output : r.output = packageOutput
  start : r.start = packageSession kind body
  surveyed : r.surveyed = packageSurveyed kind body
  entries : r.outcome.entries = entries
  modules : r.outcome.generatedSources = modules
  messages : r.outcome.diagnostics.map (·.message) = messages

theorem surveyed_of_run? {kind : SymbolModel.Kind} {body : List Statement} {r : FinishedRound}
    (h : FinishedRound.run? packageProcessor packageOutput (packageSession kind body) = some r) :
    r.surveyed = packageSurveyed kind body := by
  obtain ⟨hprocessor, -, hstart⟩ := FinishedRound.of_run?_eq_some h
  rw [FinishedRound.surveyed, hprocessor, hstart, packageSurveyed]

theorem exists_packageRound {kind : SymbolModel.Kind} {body : List Statement}
    {entries : List Entry} {modules : List Path} {messages : List String}
    (h : packageOutcome? kind body = some (entries, modules, messages)) :
    ∃ r, PackageRound kind body entries modules messages r := by
  obtain ⟨r, hr, heq⟩ := Option.map_eq_some_iff.mp h
  obtain ⟨hprocessor, houtput, hstart⟩ := FinishedRound.of_run?_eq_some hr
  obtain ⟨hentries, hrest⟩ := Prod.mk.inj heq
  obtain ⟨hmodules, hmessages⟩ := Prod.mk.inj hrest
  exact ⟨r, hprocessor, houtput, hstart, surveyed_of_run? hr, hentries, hmodules, hmessages⟩

/-- A contract and a provider that asks for a factory. -/
def providedBody : List Statement := [
  .declare { name := "C" },
  .declare {
    name := "I"
    bases := [.named "C" []]
    marker := some { value := some (.ref (.named "C" [])), generateFactory := some (.bool true) } }]

def providedScan : StaticModel :=
  match (packageSurveyed .static providedBody).model with
  | .static model => model
  | .live _ => .new {} []

def providedImport : LiveModel :=
  match (packageSurveyed .live providedBody).model with
  | .live model => model
  | .static _ => { moduleNames := [] }

theorem reflects_provided : Reflects packageProcessor.markers providedScan providedImport
    (packageSurveyed .live providedBody).world := by
  simp only [providedScan, providedImport, packageSurveyed, packageSession, packageWorld,
    toList_programText]
  decide +kernel

/-- A provider whose first base defines what its second base leaves open. -/
def mixedBody : List Statement := [
  .declare { name := "A", bases := [.qualified "abc" ["ABC"]], abstract := ["f"] },
  .declare { name := "M", bases := [.qualified "abc" ["ABC"]], methods := ["f"] },
  .declare {
    name := "C"
    bases := [.named "M" [], .named "A" []]
    marker := some { value := some (.ref (.named "A" [])) } }]

end ProviderRegistry
