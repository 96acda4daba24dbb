import ProviderRegistry.Proofs.Referring

/-!
# What a scan asks its modules

To find out about classes a scan asks a module for what its imports bind some names to: the
first components of the names that are written at its class statements, and those that
names lead to from other modules (`Scope.Asks`). Two scopes that declare the same classes
and give the same answers to what is asked have the same elements
(`Scope.Mirrors.elementsOf_eq`) and accept the same providers
(`StaticModel.Mirrors.acceptedBindings_eq`), whatever else their imports bind.
-/

namespace ProviderRegistry

/-! ## Lists side by side -/

theorem forall₂_mem {α β : Type} {R : α → β → Prop} {l : List α} {l' : List β}
    (h : List.Forall₂ R l l') : List.Forall₂ (fun a b => a ∈ l ∧ R a b) l l' := by
  induction h with
  | nil => exact .nil
  | cons hab _ ih =>
    exact .cons ⟨List.mem_cons_self, hab⟩ (ih.imp fun _ _ h => ⟨List.mem_cons_of_mem _ h.1, h.2⟩)

/-- Folds over related lists agree when their steps do. -/
theorem foldl_eq_of_forall₂ {α β γ : Type} {R : α → β → Prop} {step : γ → α → γ}
    {step' : γ → β → γ} {l : List α} {l' : List β} (h : List.Forall₂ R l l')
    (hstep : ∀ acc a b, R a b → step' acc b = step acc a) (acc : γ) :
    l'.foldl step' acc = l.foldl step acc := by
  induction h generalizing acc with
  | nil => rfl
  | cons hab _ ih => rw [List.foldl_cons, List.foldl_cons, hstep acc _ _ hab, ih]

theorem filterMap_eq_of_forall₂ {α β γ : Type} {R : α → β → Prop} {f : α → Option γ}
    {g : β → Option γ} {l : List α} {l' : List β} (h : List.Forall₂ R l l')
    (hfg : ∀ a b, R a b → g b = f a) : l'.filterMap g = l.filterMap f := by
  induction h with
  | nil => rfl
  | cons hab _ ih => rw [List.filterMap_cons, List.filterMap_cons, hfg _ _ hab, ih]

namespace Symbols

open Syntax

/-! ## What is written at class statements -/

namespace ClassDeclaration

/-- The names that are written at a class statement: its bases and its decorators, which
may be markers, with their arguments. -/
def writtenNames (c : ClassDeclaration) : List String :=
  c.bases.filterMap (·.dotted?) ++ c.decorators.filterMap (·.dotted?) ++
    c.decorators.filterMap StaticModel.markerName? ++
    (c.decorators.flatMap StaticModel.markerArguments).filterMap StaticModel.writtenName?

/-- The texts among the arguments of the markers of a class statement. -/
def writtenTexts (c : ClassDeclaration) : List String :=
  (c.decorators.flatMap StaticModel.markerArguments).filterMap StaticModel.writtenText?

/-- Two class statements say the same of their classes, decorators aside. -/
structure Resembles (c c' : ClassDeclaration) : Prop where
  qualname : c'.qualname = c.qualname
  line : c'.line = c.line
  bases : c'.bases = c.bases
  members : c'.members = c.members

/-- Two class statements differ at most in what the functions in their bodies do. -/
structure Matches (c c' : ClassDeclaration) : Prop where
  qualname : c'.qualname = c.qualname
  line : c'.line = c.line
  bases : c'.bases = c.bases
  decorators : c'.decorators = c.decorators
  members : c'.members = c.members

theorem Matches.resembles {c c' : ClassDeclaration} (h : c.Matches c') : c.Resembles c' :=
  ⟨h.qualname, h.line, h.bases, h.members⟩

end ClassDeclaration

namespace Scope

/-! ## What is asked -/

/-- A name that is written in a module, with what the module has for its first component in
its place. -/
def spelledOut (m : SourceModule) (written : String) : String :=
  match headMeaning? m (splitHead written).1 with
  | some meaning => joinDots (meaning :: (splitHead written).2)
  | none => written

/-- Where a name leads: a module that has been read, and the components after it. -/
def hopAt? (scope : Scope) (name : String) : Option (SourceModule × String × List String) :=
  match (dottedParts name).reverse with
  | [] => none
  | last :: before =>
    match scope.splitModule? [last] before with
    | some (m, head :: rest) => some (m, head, rest)
    | _ => none

variable {scope scope' : Scope} {name : String}

theorem hop?_eq (scope : Scope) (name : String) : scope.hop? name =
    (scope.hopAt? name).bind fun (m, head, rest) =>
      if m.topLevel.contains head then none
      else (m.imports.lookup head).map fun target => joinDots (target :: rest) := by
  rw [hop?, hopAt?]
  cases (dottedParts name).reverse with
  | nil => rfl
  | cons last before =>
    simp only
    rcases scope.splitModule? [last] before with _ | ⟨m, _ | ⟨head, rest⟩⟩
    · rfl
    · rfl
    · rfl

/-- The names that come up in a scan: those of classes, those that are written at class
statements, and those that they lead to. -/
inductive ComesUp (scope : Scope) : String → Prop
  | declared {name : String} {d : Declared} : (name, d) ∈ scope.classes → ComesUp scope name
  | written {name written : String} {d : Declared} : (name, d) ∈ scope.classes →
      written ∈ d.declaration.writtenNames → ComesUp scope (spelledOut d.module written)
  | text {name text : String} {d : Declared} : (name, d) ∈ scope.classes →
      text ∈ d.declaration.writtenTexts → ComesUp scope text
  | next {name next : String} : ComesUp scope name → scope.hop? name = some next →
      ComesUp scope next

/-- A scan asks a module for what its imports bind a name to. -/
inductive Asks (scope : Scope) : SourceModule → String → Prop
  | written {name written : String} {d : Declared} : (name, d) ∈ scope.classes →
      written ∈ d.declaration.writtenNames → Asks scope d.module (splitHead written).1
  | hop {name head : String} {m : SourceModule} {rest : List String} : scope.ComesUp name →
      scope.hopAt? name = some (m, head, rest) → Asks scope m head

/-- One module has the classes of another, and its answers to what is asked. -/
structure Agrees (scope : Scope) (m m' : SourceModule) : Prop where
  name : m'.name = m.name
  path : m'.path = m.path
  isPackage : m'.isPackage = m.isPackage
  topLevel : m'.topLevel = m.topLevel
  answers : ∀ head, scope.Asks m head → head ∉ m.topLevel →
    m'.imports.lookup head = m.imports.lookup head

/-- A class that is declared in both scopes, by modules that agree. -/
structure Declares (scope : Scope) (d d' : Declared) : Prop where
  module : scope.Agrees d.module d'.module
  declaration : d.declaration.Matches d'.declaration

/-- A scope declares the classes of another one, and its modules agree with those of the
other. -/
structure Mirrors (scope scope' : Scope) : Prop where
  modules : Table.Pairs scope.Agrees scope.modules scope'.modules
  classes : Table.Pairs scope.Declares scope.classes scope'.classes

/-- A class that is declared in both scopes, by modules that agree, whatever its decorators
are. -/
structure Restates (scope : Scope) (d d' : Declared) : Prop where
  module : scope.Agrees d.module d'.module
  declaration : d.declaration.Resembles d'.declaration

/-- A scope declares the classes of another one, decorators aside, and its modules agree with
those of the other. -/
structure Resembles (scope scope' : Scope) : Prop where
  modules : Table.Pairs scope.Agrees scope.modules scope'.modules
  classes : Table.Pairs scope.Restates scope.classes scope'.classes

theorem Declares.restates {d d' : Declared} (h : scope.Declares d d') : scope.Restates d d' :=
  ⟨h.module, h.declaration.resembles⟩

theorem Mirrors.resembles (h : scope.Mirrors scope') : scope.Resembles scope' :=
  ⟨h.modules, h.classes.imp fun _ _ h => ⟨h.1, h.2.restates⟩⟩

/-! ## Names -/

namespace Resembles

variable (h : scope.Resembles scope')

include h

theorem declares_eq (name : String) : scope'.declares name = scope.declares name :=
  h.classes.has_eq name

theorem splitModule? (initial rest : List String) :
    (scope.splitModule? rest initial = none ∧ scope'.splitModule? rest initial = none) ∨
      ∃ m m' parts, scope.splitModule? rest initial = some (m, parts) ∧
        scope'.splitModule? rest initial = some (m', parts) ∧ scope.Agrees m m' := by
  induction initial generalizing rest with
  | nil => exact .inl ⟨rfl, rfl⟩
  | cons last before ih =>
    rw [Scope.splitModule?, Scope.splitModule?]
    rcases h.modules.lookup (joinDots (last :: before).reverse) with
      ⟨hnone, hnone'⟩ | ⟨m, m', hsome, hsome', hagrees⟩
    · rw [hnone, hnone']
      exact ih (last :: rest)
    · rw [hsome, hsome']
      exact .inr ⟨m, m', rest, rfl, rfl, hagrees⟩

theorem hopAt? (name : String) :
    (scope.hopAt? name = none ∧ scope'.hopAt? name = none) ∨
      ∃ m m' head rest, scope.hopAt? name = some (m, head, rest) ∧
        scope'.hopAt? name = some (m', head, rest) ∧ scope.Agrees m m' := by
  rw [Scope.hopAt?, Scope.hopAt?]
  cases (dottedParts name).reverse with
  | nil => exact .inl ⟨rfl, rfl⟩
  | cons last before =>
    simp only
    rcases h.splitModule? before [last] with
      ⟨hnone, hnone'⟩ | ⟨m, m', parts, hsome, hsome', hagrees⟩
    · rw [hnone, hnone']
      exact .inl ⟨rfl, rfl⟩
    · rw [hsome, hsome']
      cases parts with
      | nil => exact .inl ⟨rfl, rfl⟩
      | cons head rest => exact .inr ⟨m, m', head, rest, rfl, rfl, hagrees⟩

theorem hop?_eq (hname : scope.ComesUp name) : scope'.hop? name = scope.hop? name := by
  rw [Scope.hop?_eq, Scope.hop?_eq]
  rcases h.hopAt? name with ⟨hnone, hnone'⟩ | ⟨m, m', head, rest, hsome, hsome', hagrees⟩
  · rw [hnone, hnone']
  · rw [hsome, hsome', Option.bind_some, Option.bind_some]
    simp only [hagrees.topLevel]
    by_cases htop : m.topLevel.contains head = true
    · rw [if_pos htop, if_pos htop]
    · rw [if_neg htop, if_neg htop, hagrees.answers head (.hop hname hsome)
        fun hmem => htop (List.contains_iff_mem.mpr hmem)]

theorem canonicalWithin_eq (hops : Nat) (hname : scope.ComesUp name) :
    scope'.canonicalWithin hops name = scope.canonicalWithin hops name := by
  induction hops generalizing name with
  | zero => rfl
  | succ hops ih =>
    rw [canonicalWithin, canonicalWithin, h.declares_eq, h.hop?_eq hname]
    split
    next => rfl
    next =>
      split
      next next hnext => exact ih (.next hname hnext)
      next => rfl

end Resembles

theorem ComesUp.canonicalWithin (hname : scope.ComesUp name) (hops : Nat) :
    scope.ComesUp (scope.canonicalWithin hops name) := by
  induction hops generalizing name with
  | zero => exact hname
  | succ hops ih =>
    rw [Scope.canonicalWithin]
    split
    next => exact hname
    next =>
      split
      next next hnext => exact ih (.next hname hnext)
      next => exact hname

theorem spelledOut_of_some {m : SourceModule} {written meaning : String}
    (hmeaning : headMeaning? m (splitHead written).1 = some meaning) :
    scope.resolve m written = scope.canonical (spelledOut m written) := by
  rw [resolve, spelledOut]
  simp only [hmeaning]

theorem spelledOut_of_none {m : SourceModule} {written : String}
    (hmeaning : headMeaning? m (splitHead written).1 = none) :
    scope.resolve m written = spelledOut m written := by
  rw [resolve, spelledOut]
  simp only [hmeaning]

variable {d d' : Declared} {written : String}

/-- What a name at a class statement refers to comes up. -/
theorem ComesUp.resolve (hd : (name, d) ∈ scope.classes)
    (hwritten : written ∈ d.declaration.writtenNames) :
    scope.ComesUp (scope.resolve d.module written) := by
  have hspelled : scope.ComesUp (spelledOut d.module written) := .written hd hwritten
  cases hmeaning : headMeaning? d.module (splitHead written).1 with
  | none => exact spelledOut_of_none hmeaning ▸ hspelled
  | some meaning =>
    rw [spelledOut_of_some hmeaning]
    exact hspelled.canonicalWithin maxHops

namespace Resembles

variable (h : scope.Resembles scope')

include h

/-- A name at a class statement refers to the same in both scopes. -/
theorem resolve_eq (hd : (name, d) ∈ scope.classes) (hrestates : scope.Restates d d')
    (hwritten : written ∈ d.declaration.writtenNames) :
    scope'.resolve d'.module written = scope.resolve d.module written := by
  have hmeaning : headMeaning? d'.module (splitHead written).1 =
      headMeaning? d.module (splitHead written).1 := by
    rw [headMeaning?, headMeaning?, hrestates.module.topLevel, hrestates.module.name]
    by_cases htop : d.module.topLevel.contains (splitHead written).1 = true
    · rw [if_pos htop, if_pos htop]
    · rw [if_neg htop, if_neg htop, hrestates.module.answers _ (.written hd hwritten)
        fun hmem => htop (List.contains_iff_mem.mpr hmem)]
  have hspelled : spelledOut d'.module written = spelledOut d.module written := by
    rw [spelledOut, spelledOut, hmeaning]
  cases hcase : headMeaning? d.module (splitHead written).1 with
  | none => rw [spelledOut_of_none (hmeaning.trans hcase), spelledOut_of_none hcase, hspelled]
  | some meaning =>
    rw [spelledOut_of_some (hmeaning.trans hcase), spelledOut_of_some hcase, hspelled]
    exact h.canonicalWithin_eq maxHops (.written hd hwritten)

theorem supertypes_eq (hd : (name, d) ∈ scope.classes) (hrestates : scope.Restates d d') :
    scope'.supertypes d' = scope.supertypes d := by
  rw [supertypes, supertypes, hrestates.declaration.bases]
  refine List.map_congr_left fun written hwritten => h.resolve_eq hd hrestates ?_
  exact List.mem_append_left _ (List.mem_append_left _ (List.mem_append_left _ hwritten))

/-- A class is declared in neither scope, or in both. -/
theorem lookup_classes (name : String) :
    (scope.classes.lookup name = none ∧ scope'.classes.lookup name = none) ∨
      ∃ d d', scope.classes.lookup name = some d ∧ scope'.classes.lookup name = some d' ∧
        scope.Restates d d' ∧ scope'.supertypes d' = scope.supertypes d := by
  refine (h.classes.lookup name).imp_right ?_
  rintro ⟨d, d', hd, hd', hrestates⟩
  exact ⟨d, d', hd, hd', hrestates, h.supertypes_eq (Table.mem_of_lookup hd) hrestates⟩

/-! ## Elements -/

theorem abstractMembers_eq (depth : Nat) (name : String) (known : Table String (List String)) :
    scope'.abstractMembers depth name known = scope.abstractMembers depth name known := by
  induction depth generalizing name known with
  | zero => rfl
  | succ depth ih =>
    rw [abstractMembers, abstractMembers]
    rcases h.lookup_classes name with ⟨hnone, hnone'⟩ | ⟨d, d', hsome, hsome', hrestates, hsuper⟩
    · rw [hnone, hnone']
      cases known.lookup name <;> rfl
    · rw [hsome, hsome']
      cases known.lookup name with
      | some answer => rfl
      | none => simp only [hsuper, hrestates.declaration.members, ih]

theorem isEnumeration_eq (depth : Nat) (name : String) (known : Table String Bool) :
    scope'.isEnumeration depth name known = scope.isEnumeration depth name known := by
  induction depth generalizing name known with
  | zero => rfl
  | succ depth ih =>
    rw [isEnumeration, isEnumeration]
    rcases h.lookup_classes name with ⟨hnone, hnone'⟩ | ⟨d, d', hsome, hsome', hrestates, hsuper⟩
    · rw [hnone, hnone']
      cases known.lookup name <;> rfl
    · rw [hsome, hsome']
      cases known.lookup name with
      | some answer => rfl
      | none => simp only [hsuper, ih]

theorem inheritanceDepth_eq : scope'.inheritanceDepth = scope.inheritanceDepth := by
  rw [inheritanceDepth, inheritanceDepth, h.classes.length_eq]

end Resembles

namespace Mirrors

variable (h : scope.Mirrors scope')

include h

open StaticModel in
theorem bareElement_eq (hd : (name, d) ∈ scope.classes) (hdeclares : scope.Declares d d')
    (answers : Answers) :
    bareElement scope' name d' answers = bareElement scope name d answers := by
  have hfinal : (d'.declaration.decorators.any fun e =>
        e.dotted?.any fun written => finalDecorators.contains (scope'.resolve d'.module written)) =
      d.declaration.decorators.any fun e =>
        e.dotted?.any fun written => finalDecorators.contains (scope.resolve d.module written) := by
    rw [hdeclares.declaration.decorators]
    rw [List.any_eq, List.any_eq]
    refine decide_eq_decide.mpr (exists_congr fun e => and_congr_right fun he => ?_)
    cases hwritten : e.dotted? with
    | none => rfl
    | some written =>
      have hmem : written ∈ d.declaration.writtenNames :=
        List.mem_append_left _ (List.mem_append_left _ (List.mem_append_right _
          (List.mem_filterMap.mpr ⟨e, he, hwritten⟩)))
      rw [Option.any_some, Option.any_some, h.resembles.resolve_eq hd hdeclares.restates hmem]
  rw [bareElement, bareElement]
  simp only [h.resembles.supertypes_eq hd hdeclares.restates, h.resembles.inheritanceDepth_eq, h.resembles.isEnumeration_eq,
    h.resembles.abstractMembers_eq, hfinal, hdeclares.module.name, hdeclares.module.path,
    hdeclares.module.isPackage, hdeclares.declaration.qualname, hdeclares.declaration.line]

open StaticModel in
theorem bareElements_eq : bareElements scope' = bareElements scope := by
  refine congrArg Prod.fst (foldl_eq_of_forall₂ (forall₂_mem h.classes) ?_ _)
  rintro ⟨elements, answers⟩ ⟨name, d⟩ ⟨name', d'⟩ ⟨hd, hname, hdeclares⟩
  obtain rfl : name' = name := hname
  simp only [h.bareElement_eq hd hdeclares]

open StaticModel in
theorem lookUp_eq (elements : Table String Element) (hname : scope.ComesUp name) :
    lookUp scope' elements name = lookUp scope elements name := by
  rw [lookUp, lookUp, canonical, canonical, h.resembles.canonicalWithin_eq maxHops hname]

open StaticModel in
/-- An argument of a marker has the same value in both scopes. -/
theorem argument?_eq (elements : Table String Element) (hd : (name, d) ∈ scope.classes)
    (hdeclares : scope.Declares d d') {e : Expr}
    (he : e ∈ d.declaration.decorators.flatMap markerArguments) :
    argument? scope' elements d'.module e = argument? scope elements d.module e := by
  rw [StaticModel.argument?_eq, StaticModel.argument?_eq]
  cases hname : writtenName? e with
  | none => rfl
  | some written =>
    have hwritten : written ∈ d.declaration.writtenNames :=
      List.mem_append_right _ (List.mem_filterMap.mpr ⟨e, he, hname⟩)
    simp only [Option.map_some, refer, h.resembles.resolve_eq hd hdeclares.restates hwritten,
      h.lookUp_eq elements (.resolve hd hwritten)]

open StaticModel in
/-- A decorator is the same marker in both scopes. -/
theorem annotation?_eq (elements : Table String Element) (hd : (name, d) ∈ scope.classes)
    (hdeclares : scope.Declares d d') {decorator : Expr}
    (hdecorator : decorator ∈ d.declaration.decorators) :
    annotation? scope' elements d'.module decorator =
      annotation? scope elements d.module decorator := by
  have hmarker {written : String} (hwritten : markerName? decorator = some written) :
      scope'.resolve d'.module written = scope.resolve d.module written :=
    h.resembles.resolve_eq hd hdeclares.restates (List.mem_append_left _ (List.mem_append_right _
      (List.mem_filterMap.mpr ⟨decorator, hdecorator, hwritten⟩)))
  have hargument {e : Expr} (he : e ∈ markerArguments decorator) :
      argument? scope' elements d'.module e = argument? scope elements d.module e :=
    h.argument?_eq elements hd hdeclares (List.mem_flatMap.mpr ⟨decorator, hdecorator, he⟩)
  rw [annotation?, annotation?]
  rw [markerName?] at hmarker
  rw [markerArguments] at hargument
  cases hstripped : decorator.stripped with
  | call function args named =>
    simp only [hstripped] at hmarker hargument
    have hfirst : args.head?.bind (argument? scope' elements d'.module) =
        args.head?.bind (argument? scope elements d.module) := by
      cases hhead : args.head? with
      | none => rfl
      | some e => exact hargument (List.mem_append_left _ (Option.mem_toList.mpr hhead))
    have hnamed : ∀ p ∈ named, argument? scope' elements d'.module p.2 =
        argument? scope elements d.module p.2 :=
      fun p hp => hargument (List.mem_append_right _ (List.mem_map_of_mem hp))
    cases hfunction : function.dotted? with
    | none => simp only [hfunction, Option.map_none]
    | some written =>
      simp only [hfunction, Option.map_some, hmarker hfunction, hfirst]
      congr 2
      refine List.foldl_ext _ _ _ fun table p hp => ?_
      simp only [hnamed p hp]
  | _ =>
    simp only [hstripped] at hmarker
    exact Option.map_congr fun written hwritten => by rw [hmarker hwritten]

open StaticModel in
theorem elementsOf_eq : elementsOf scope' = elementsOf scope := by
  rw [elementsOf, elementsOf, h.bareElements_eq]
  refine foldl_eq_of_forall₂ (forall₂_mem h.classes) ?_ _
  rintro elements ⟨name, d⟩ ⟨name', d'⟩ ⟨hd, hname, hdeclares⟩
  obtain rfl : name' = name := hname
  have hannotations : d'.declaration.decorators.filterMap (annotation? scope' elements d'.module) =
      d.declaration.decorators.filterMap (annotation? scope elements d.module) := by
    rw [hdeclares.declaration.decorators]
    exact List.filterMap_congr fun e he => h.annotation?_eq elements hd hdeclares he
  simp only [mark, hannotations]

end Mirrors

end Scope

/-! ## Markers -/

namespace StaticModel

variable {scope : Scope} {elements : Table String Element} {m : SourceModule}

/-- The names in the values of a marker's arguments come up. -/
def Named (scope : Scope) : MarkerValue → Prop
  | .literal (.str text) => scope.ComesUp text
  | .literal _ => True
  | .type contract => scope.ComesUp contract.qualifiedName

variable {name : String} {d : Declared}

theorem named_of_argument? (hscope : scope.WellNamed)
    (hkeyed : scope.classes.Keyed Declared.qualifiedName) (hall : AllDescribe scope elements)
    (hd : (name, d) ∈ scope.classes) {e : Expr}
    (he : e ∈ d.declaration.decorators.flatMap markerArguments) {value : MarkerValue}
    (hvalue : argument? scope elements d.module e = some value) : Named scope value := by
  cases value with
  | type contract =>
    rcases type_of_argument? hkeyed hall hvalue with ⟨declared, hdeclared⟩ | ⟨written, hname, rfl⟩
    · exact .declared hdeclared
    · have hdotted : IsDotted (scope.resolve d.module written) :=
        Scope.isDotted_resolve hscope (hscope.classes _ hd).module (isDotted_of_writtenName? hname)
      change scope.ComesUp (Element.undeclared (scope.resolve d.module written)).qualifiedName
      rw [qualifiedName_undeclared hdotted]
      exact .resolve hd (List.mem_append_right _ (List.mem_filterMap.mpr ⟨e, he, hname⟩))
  | literal l =>
    cases l with
    | str text =>
      have hl := literal_of_argument? hvalue
      exact .text hd (List.mem_filterMap.mpr ⟨e, he, by rw [writtenText?, hl]⟩)
    | _ => trivial

/-! ## Models -/

variable {model model' scanned : StaticModel} {tree : FileTree} {reports reports' : Reports}

/-- What a model has found is said in names that come up. -/
structure Settled (model : StaticModel) : Prop where
  supertypes : ∀ entry ∈ model.found, ∀ name ∈ entry.2.supertypes, model.scope.ComesUp name
  markers : ∀ entry ∈ model.found, ∀ a ∈ entry.2.annotations, ∀ argument ∈ a.arguments,
    Named model.scope argument.2

theorem settled_of_scan (hscope : model.scope = {}) (helements : model.elements = none)
    (h : model.scan tree reports = (scanned, reports', .ok ())) : scanned.Settled := by
  have hgrown := grown_of_scan hscope helements h
  have hnamed : scanned.scope.WellNamed := (wellNamed_of_scan hscope helements h).scope
  constructor
  · intro entry hmem name hname
    obtain ⟨d, hd, hdescribes⟩ := of_mem_found helements h entry hmem
    rw [hdescribes.supertypes] at hname
    obtain ⟨written, hwritten, rfl⟩ := List.mem_map.mp hname
    exact .resolve hd (List.mem_append_left _ (List.mem_append_left _
      (List.mem_append_left _ hwritten)))
  · intro entry hmem a ha argument hargument
    obtain ⟨name, d, before, e, hd, hall, he, hvalue⟩ :=
      exists_argument_of_mem_found hscope helements h hmem ha hargument
    exact named_of_argument? hnamed hgrown.classes hall hd he hvalue

namespace Settled

variable (h : model.Settled)

include h

/-- The supertypes of what is found come up. -/
theorem comesUp_of_element? {e : Element} (he : model.element? name = some e) :
    ∀ name ∈ e.supertypes, model.scope.ComesUp name := by
  obtain ⟨key, hmem⟩ := exists_mem_of_lookUp he
  exact h.supertypes _ hmem

theorem comesUp_of_lookThrough (target : String) {names : List String} (seen : List String)
    {queue : List Element}
    (hqueue : ∀ e ∈ queue, ∀ name ∈ e.supertypes, model.scope.ComesUp name)
    {seen' : List String} {queue' : List Element}
    (hlook : Id.run (lookThrough model.element? target names seen queue) =
      .further seen' queue') :
    ∀ e ∈ queue', ∀ name ∈ e.supertypes, model.scope.ComesUp name := by
  induction names generalizing seen queue with
  | nil =>
    cases hlook
    exact hqueue
  | cons name rest ih =>
    rw [lookThrough] at hlook
    split at hlook
    next => cases hlook
    next =>
      split at hlook
      next => exact ih seen hqueue hlook
      next =>
        refine ih _ (List.forall_mem_append.mpr ⟨hqueue, fun e he => ?_⟩) hlook
        exact h.comesUp_of_element? (Option.mem_toList.mp he)

end Settled

/-- A model has found what another one has, and its scope mirrors that of the other. -/
structure Mirrors (model model' : StaticModel) : Prop where
  scope : model.scope.Mirrors model'.scope
  found : model'.found = model.found

namespace Mirrors

variable (h : model.Mirrors model')

include h

theorem element?_eq (hname : model.scope.ComesUp name) :
    model'.element? name = model.element? name := by
  rw [element?, element?, h.found]
  exact h.scope.lookUp_eq _ hname

theorem lookThrough_eq (target : String) {names : List String}
    (hnames : ∀ name ∈ names, model.scope.ComesUp name) (seen : List String)
    (queue : List Element) :
    Id.run (lookThrough model'.element? target names seen queue) =
      Id.run (lookThrough model.element? target names seen queue) := by
  induction names generalizing seen queue with
  | nil => rfl
  | cons name rest ih =>
    rw [List.forall_mem_cons] at hnames
    rw [lookThrough, lookThrough, h.element?_eq hnames.1]
    split
    next => rfl
    next =>
      split
      next => exact ih hnames.2 seen queue
      next => exact ih hnames.2 _ _

variable (hsettled : model.Settled)

include hsettled

theorem walkUp_eq (target : String) (steps : Nat) {queue : List Element} {seen : List String}
    (hqueue : ∀ e ∈ queue, ∀ name ∈ e.supertypes, model.scope.ComesUp name) :
    Id.run (walkUp model'.element? target steps queue seen) =
      Id.run (walkUp model.element? target steps queue seen) := by
  -- By induction on the steps of the walk; the invariant is that the supertypes of all classes
  -- in the queue come up.
  induction steps generalizing queue seen with
  | zero => rfl
  | succ steps ih =>
    cases queue with
    | nil => rfl
    | cons current queue =>
      rw [List.forall_mem_cons] at hqueue
      rw [walkUp, walkUp]
      split
      next => rfl
      next =>
        rw [Id.run_bind, Id.run_bind, h.lookThrough_eq target hqueue.1]
        cases hlook : Id.run (lookThrough model.element? target current.supertypes seen queue) with
        | found => rfl
        | further seen' queue' =>
          exact ih (hsettled.comesUp_of_lookThrough target seen hqueue.2 hlook)

theorem inherits_eq {element : Element}
    (helement : ∀ name ∈ element.supertypes, model.scope.ComesUp name) (contract : Element) :
    model'.inherits element contract = model.inherits element contract := by
  rw [inherits, inherits, walkSteps, walkSteps, h.found]
  exact h.walkUp_eq hsettled _ _ (List.forall_mem_singleton.mpr helement)

open Resolution in
theorem contractIn?_eq (markers : List String) {entry : String × Element}
    (hentry : entry ∈ model.found) :
    contractIn? model' markers entry.2 = contractIn? model markers entry.2 := by
  have hvalue {value : MarkerValue}
      (h : (entry.2.annotation? markers).bind (·.value? "value") = some value) :
      Named model.scope value := by
    obtain ⟨a, ha, hvalue⟩ := Option.bind_eq_some_iff.mp h
    exact hsettled.markers entry hentry a (List.mem_of_find?_eq_some ha) _
      (Table.mem_of_lookup hvalue)
  rw [contractIn?, contractIn?]
  split
  next text heq => rw [reference, reference, h.element?_eq (hvalue heq)]
  next contract heq => rw [h.element?_eq (hvalue heq)]
  next => rfl

/-- **Models that mirror each other accept the same providers.** -/
theorem acceptedBindings_eq (markers : List String) :
    acceptedBindings model' markers = acceptedBindings model markers := by
  rw [acceptedBindings, acceptedBindings, marked, marked, h.found]
  refine List.filterMap_congr fun e he => ?_
  obtain ⟨entry, hentry, rfl⟩ := List.mem_map.mp (List.mem_filter.mp he).1
  rw [Resolution.verdict, Resolution.verdict, h.contractIn?_eq hsettled markers hentry]
  simp only [h.inherits_eq hsettled (hsettled.supertypes entry hentry)]

end Mirrors

end StaticModel

end Symbols

end ProviderRegistry
