import ProviderRegistry.Proofs.Inheriting
import ProviderRegistry.Proofs.Linearising

/-!
# Abstract classes

A member of a class is what the first class along its linearisation defines, and a class
with an abstract member cannot be instantiated. The static model looks at the bases of a
class one by one instead of following the linearisation. What it marks as abstract includes
every class that is (`Scope.leavesOpen_of_isOpenAlong`), but it may include more: a class of
which one base leaves a member open that another one, which comes first, defines. Where
bases agree there are none (`StaticModel.marks_abstract`).
-/

namespace ProviderRegistry

namespace Symbols

open Syntax

variable {scope : Scope} {name m : String} {d : Declared} {depth : Nat} {order : List String}

/-! ## Class bodies -/

mutual

/-- The names that an assignment to a target defines. -/
def boundNames : Expr → List String
  | .name id => [id.text]
  | .parenthesized inner => boundNames inner
  | .starred value => boundNames value
  | .tuple items _ => boundNamesIn items
  | .list items => boundNamesIn items
  | _ => []

/-- The names that an assignment to several targets at once defines. -/
def boundNamesIn : List Expr → List String
  | [] => []
  | target :: rest => boundNames target ++ boundNamesIn rest

end

/-- The members that a function or an assignment in a class body defines, and whether they
are abstract. What is assigned is not. -/
def definitionsOf : Stmt → List (String × Bool)
  | .functionDef name decorators _ => [(name.text, isAbstractMember decorators)]
  | .assign targets _ => (targets.flatMap boundNames).map (·, false)
  | .annotated target (some _) => (boundNames target).map (·, false)
  | _ => []

/-- Whether a statement of a class body defines members only as a function, or as an
assignment to a name. -/
def definesDirectly : Stmt → Bool
  | .functionDef _ _ _ => true
  | .assign targets _ => targets.all fun target => boundNames target == (boundName? target).toList
  | .annotated target _ => boundNames target == (boundName? target).toList
  | .expression _ => true
  | .simple => true
  | _ => false

/-- Whether a name is private to the class in whose body it stands. -/
def isPrivate (name : String) : Bool :=
  ['_', '_'].isPrefixOf name.toList && !(['_', '_'].isSuffixOf name.toList)

namespace ClassDeclaration

/-- The name under which a class keeps a member. A private one gets the name of the class,
so that other classes do not replace it. -/
def keptName (c : ClassDeclaration) (member : String) : String :=
  let owner := (splitLastDot c.qualname).2.toList.dropWhile (· == '_')
  if isPrivate member && !owner.isEmpty then String.ofList ('_' :: owner ++ member.toList)
  else member

/-- The members that a class body defines. -/
def definitions (c : ClassDeclaration) : List (String × Bool) :=
  (c.body.flatMap definitionsOf).map fun (member, isAbstract) => (c.keptName member, isAbstract)

/-- Whether a member that a class body defines is abstract. Of two definitions the last one
counts. -/
def definition? (c : ClassDeclaration) (member : String) : Option Bool :=
  c.definitions.reverse.lookup member

/-- A class body in which members are defined directly, once, and for all classes. -/
structure IsPlain (c : ClassDeclaration) : Prop where
  direct : ∀ s ∈ c.body, definesDirectly s = true
  once : ((c.body.flatMap definitionsOf).map (·.1)).Nodup
  isPublic : ∀ p ∈ c.body.flatMap definitionsOf, isPrivate p.1 = false

instance (c : ClassDeclaration) : Decidable c.IsPlain :=
  decidable_of_iff ((∀ s ∈ c.body, definesDirectly s = true) ∧
      ((c.body.flatMap definitionsOf).map (·.1)).Nodup ∧
      ∀ p ∈ c.body.flatMap definitionsOf, isPrivate p.1 = false)
    ⟨fun h => ⟨h.1, h.2.1, h.2.2⟩, fun h => ⟨h.direct, h.once, h.isPublic⟩⟩

end ClassDeclaration

/-! What the static model reads of a plain body is what the body defines. -/

theorem add_of_definesDirectly (members : Members) {s : Stmt} (h : definesDirectly s = true) :
    (members.add s).abstract = members.abstract ++ ((definitionsOf s).filter (·.2)).map (·.1) ∧
      (members.add s).concrete =
        members.concrete ++ ((definitionsOf s).filter (!·.2)).map (·.1) := by
  cases s with
  | functionDef name decorators body =>
    rw [Members.add]
    split
    · next habstract => simp [definitionsOf, habstract]
    · next habstract => simp [definitionsOf, habstract]
  | assign targets value =>
    have hnames : targets.flatMap boundNames = targets.filterMap boundName? := by
      rw [List.filterMap_eq_flatMap_toList]
      exact List.flatMap_congr fun target htarget =>
        eq_of_beq (List.all_eq_true.mp h target htarget)
    simp [Members.add, definitionsOf, hnames, List.filter_map, Function.comp_def]
  | annotated target value =>
    cases value with
    | none => simp [Members.add, definitionsOf]
    | some value =>
      have hname : boundNames target = (boundName? target).toList := eq_of_beq h
      simp [Members.add, definitionsOf, hname, List.filter_map, Function.comp_def]
  | expression value => simp [Members.add, definitionsOf]
  | simple => simp [Members.add, definitionsOf]
  | _ => cases h

theorem foldl_add_of_definesDirectly {body : List Stmt} (members : Members)
    (h : ∀ s ∈ body, definesDirectly s = true) :
    (body.foldl Members.add members).abstract =
        members.abstract ++ ((body.flatMap definitionsOf).filter (·.2)).map (·.1) ∧
      (body.foldl Members.add members).concrete =
        members.concrete ++ ((body.flatMap definitionsOf).filter (!·.2)).map (·.1) := by
  induction body generalizing members with
  | nil => simp
  | cons s rest ih =>
    rw [List.forall_mem_cons] at h
    obtain ⟨habstract, hconcrete⟩ := add_of_definesDirectly members h.1
    obtain ⟨habstract', hconcrete'⟩ := ih (members.add s) h.2
    rw [List.foldl_cons, List.flatMap_cons]
    constructor
    · rw [habstract', habstract, List.filter_append, List.map_append, List.append_assoc]
    · rw [hconcrete', hconcrete, List.filter_append, List.map_append, List.append_assoc]

namespace ClassDeclaration.IsPlain

variable {c : ClassDeclaration} (h : c.IsPlain)

include h

theorem definitions_eq : c.definitions = c.body.flatMap definitionsOf := by
  refine (List.map_congr_left fun p hp => ?_).trans (List.map_id _)
  simp [keptName, h.isPublic p hp]

theorem definition?_eq_some_iff {isAbstract : Bool} :
    c.definition? m = some isAbstract ↔ (m, isAbstract) ∈ c.body.flatMap definitionsOf := by
  have honce : ((c.body.flatMap definitionsOf).reverse.map (·.1)).Nodup := by
    rw [List.map_reverse]
    exact List.nodup_reverse.mpr h.once
  rw [definition?, h.definitions_eq, Table.lookup_eq_some_iff honce, List.mem_reverse]

/-- The members that the static model takes for abstract are those that are, -/
theorem mem_abstract_iff : m ∈ c.members.abstract ↔ c.definition? m = some true := by
  rw [h.definition?_eq_some_iff, members, (foldl_add_of_definesDirectly {} h.direct).1]
  simp

/-- and so are the others. -/
theorem mem_concrete_iff : m ∈ c.members.concrete ↔ c.definition? m = some false := by
  rw [h.definition?_eq_some_iff, members, (foldl_add_of_definesDirectly {} h.direct).2]
  simp

end ClassDeclaration.IsPlain

/-! ## Linearisations -/

namespace Scope

/-- The linearisation of a class all of whose ancestors have been read, down to `abc.ABC`:
if bases go on without end, name no class, or cannot be put in order, there is none. -/
def linearise (scope : Scope) : (depth : Nat) → String → Option (List String)
  | 0, _ => none
  | depth + 1, name =>
    match scope.classes.lookup name with
    | none =>
      if name == "abc.ABC" && !scope.declares "builtins.object" then
        some ["abc.ABC", "builtins.object"]
      else none
    | some d =>
      if d.declaration.bases.isEmpty || !d.declaration.bases.all (·.dotted?.isSome) then none
      else do
        let orders ← (scope.supertypes d).mapM (scope.linearise depth)
        let above ← (World.ancestors (scope.supertypes d) orders).toOption
        return name :: above

/-- What the body of a class defines under a name. -/
def definition? (scope : Scope) (name member : String) : Option Bool :=
  (scope.classes.lookup name).bind (·.declaration.definition? member)

/-- The first class along an order that defines a member. -/
def owner? (scope : Scope) (order : List String) (member : String) : Option String :=
  order.find? fun name => (scope.definition? name member).isSome

/-- Whether what is defined first along an order is abstract. -/
def IsOpenAlong (scope : Scope) (order : List String) (member : String) : Prop :=
  ∃ name, scope.owner? order member = some name ∧ scope.definition? name member = some true

instance (scope : Scope) (order : List String) (member : String) :
    Decidable (scope.IsOpenAlong order member) :=
  decidable_of_iff ((scope.owner? order member).bind (scope.definition? · member) = some true)
    Option.bind_eq_some_iff

/-- The abstract members of a class: those that its body defines as abstract, and those of
its bases that are abstract when they are looked up along its linearisation. -/
inductive HoldsAbstract (scope : Scope) : String → String → Prop
  | own {name member : String} : scope.definition? name member = some true →
      HoldsAbstract scope name member
  | inherited {name base member : String} {depth : Nat} {order : List String} :
      scope.Inherits name base → HoldsAbstract scope base member →
      scope.linearise depth name = some order → scope.IsOpenAlong order member →
      HoldsAbstract scope name member

theorem mapM_eq_some_iff {α β : Type} {f : α → Option β} {l : List α} {l' : List β} :
    l.mapM f = some l' ↔ List.Forall₂ (fun a b => f a = some b) l l' := by
  induction l generalizing l' with
  | nil => simp [eq_comm]
  | cons a rest ih =>
    rw [List.mapM_cons]
    simp only [Option.bind_eq_bind, Option.bind_eq_some_iff, ih, Option.pure_def,
      Option.some.injEq]
    constructor
    · rintro ⟨b, hb, rest', hrest, rfl⟩
      exact .cons hb hrest
    · rintro (_ | ⟨hb, hrest⟩)
      exact ⟨_, hb, _, hrest, rfl⟩

/-- What a linearisation says: it is that of the root, or a class comes before its
ancestors, which are merged from the linearisations of its bases. -/
theorem of_linearise (h : scope.linearise (depth + 1) name = some order) :
    (scope.classes.lookup name = none ∧ order = ["abc.ABC", "builtins.object"] ∧
        name = "abc.ABC" ∧ scope.classes.lookup "builtins.object" = none) ∨
      ∃ d orders above, scope.classes.lookup name = some d ∧
        List.Forall₂ (fun base order => scope.linearise depth base = some order)
          (scope.supertypes d) orders ∧
        World.ancestors (scope.supertypes d) orders = .ok above ∧ order = name :: above := by
  rw [linearise] at h
  cases hd : scope.classes.lookup name with
  | none =>
    simp only [hd] at h
    split at h
    · next hroot =>
      simp only [Bool.and_eq_true, beq_iff_eq, Bool.not_eq_true', declares, Table.has,
        Option.isSome_eq_false_iff, Option.isNone_iff_eq_none] at hroot
      exact .inl ⟨rfl, (Option.some.inj h).symm, hroot⟩
    · cases h
  | some d =>
    simp only [hd] at h
    split at h
    · cases h
    · simp only [Option.bind_eq_bind, Option.bind_eq_some_iff, mapM_eq_some_iff,
        Option.pure_def, Option.some.injEq] at h
      obtain ⟨orders, horders, above, habove, rfl⟩ := h
      cases hmerge : World.ancestors (scope.supertypes d) orders with
      | error heads =>
        rw [hmerge] at habove
        cases habove
      | ok merged =>
        rw [hmerge] at habove
        cases habove
        exact .inr ⟨d, orders, above, rfl, horders, hmerge, rfl⟩

theorem exists_of_forall₂ {α β : Type} {R : α → β → Prop} {l : List α} {l' : List β}
    (h : List.Forall₂ R l l') : ∀ a ∈ l, ∃ b ∈ l', R a b := by
  induction h with
  | nil => exact List.forall_mem_nil _
  | @cons a b rest rest' hab _ ih =>
    rw [List.forall_mem_cons]
    refine ⟨⟨b, List.mem_cons_self, hab⟩, fun a ha => ?_⟩
    obtain ⟨b, hb, hr⟩ := ih a ha
    exact ⟨b, List.mem_cons_of_mem _ hb, hr⟩

theorem mem_of_linearise (h : scope.linearise depth name = some order) : name ∈ order := by
  cases depth with
  | zero => cases h
  | succ depth =>
    rcases of_linearise h with ⟨-, rfl, rfl, -⟩ | ⟨_, _, _, -, -, -, rfl⟩
    · exact List.mem_cons_self
    · exact List.mem_cons_self

/-- Bases come to an end above a class that has a linearisation. -/
theorem isGrounded_of_linearise (h : scope.linearise depth name = some order) :
    scope.IsGrounded name := by
  induction depth generalizing name order with
  | zero => cases h
  | succ depth ih =>
    refine Acc.intro name fun base hbase => ?_
    obtain ⟨d, hd, hmem⟩ := hbase
    rcases of_linearise h with ⟨hnone, -⟩ | ⟨d', orders, above, hd', horders, -, -⟩
    · cases hnone.symm.trans hd
    · cases hd'.symm.trans hd
      obtain ⟨order', -, horder'⟩ := exists_of_forall₂ horders base hmem
      exact ih horder'

/-- More depth does not change a linearisation. -/
theorem linearise_succ (h : scope.linearise depth name = some order) :
    scope.linearise (depth + 1) name = some order := by
  induction depth generalizing name order with
  | zero => cases h
  | succ depth ih =>
    rw [linearise] at h ⊢
    split at h
    · exact h
    · next d hd =>
      split at h
      · cases h
      · next hbases =>
        rw [if_neg hbases]
        simp only [Option.bind_eq_bind, Option.bind_eq_some_iff, mapM_eq_some_iff] at h ⊢
        obtain ⟨orders, horders, habove⟩ := h
        exact ⟨orders, horders.imp fun _ _ => ih, habove⟩

theorem linearise_le {depth' : Nat} (hle : depth ≤ depth')
    (h : scope.linearise depth name = some order) : scope.linearise depth' name = some order := by
  induction hle with
  | refl => exact h
  | step _ ih => exact linearise_succ ih

/-- A class has one linearisation. -/
theorem linearise_unique {depth' : Nat} {order' : List String}
    (h : scope.linearise depth name = some order)
    (h' : scope.linearise depth' name = some order') : order = order' := by
  have hmax := linearise_le (Nat.le_max_left depth depth') h
  rw [linearise_le (Nat.le_max_right depth depth') h'] at hmax
  exact (Option.some.inj hmax).symm

/-- The linearisation of a class that has been read: it comes first, then its ancestors,
each once. Those of a base stand in the order of its own linearisation, and all are
ancestors of a base. -/
structure Precedes (scope : Scope) (depth : Nat) (name : String) (d : Declared)
    (above : List String) : Prop where
  lookup : scope.classes.lookup name = some d
  nodup : above.Nodup
  base : ∀ base ∈ scope.supertypes d, ∃ order, scope.linearise depth base = some order ∧
    order.Sublist above
  ancestor : ∀ a ∈ above, ∃ base ∈ scope.supertypes d, ∃ order,
    scope.linearise depth base = some order ∧ a ∈ order

theorem precedes_of_linearise (h : scope.linearise (depth + 1) name = some order)
    (hd : scope.classes.lookup name = some d) :
    ∃ above, order = name :: above ∧ scope.Precedes depth name d above := by
  rcases of_linearise h with ⟨hnone, -⟩ | ⟨d', orders, above, hd', horders, hmerge, rfl⟩
  · cases hnone.symm.trans hd
  · cases hd'.symm.trans hd
    refine ⟨above, rfl, hd, World.nodup_of_ancestors hmerge, fun base hbase => ?_, fun a ha => ?_⟩
    · obtain ⟨order', hmem, horder'⟩ := exists_of_forall₂ horders base hbase
      exact ⟨order', horder', World.sublist_of_ancestors hmerge order' hmem⟩
    · rcases World.exists_of_mem_ancestors hmerge ha with ⟨order', hmem, hmem'⟩ | hbase
      · obtain ⟨base, hbase, horder'⟩ := exists_of_forall₂ horders.flip order' hmem
        exact ⟨base, hbase, order', horder', hmem'⟩
      · obtain ⟨order', -, horder'⟩ := exists_of_forall₂ horders a hbase
        exact ⟨a, hbase, order', horder', mem_of_linearise horder'⟩

/-! ## Members -/

theorem definition?_of_lookup (hd : scope.classes.lookup name = some d) :
    scope.definition? name m = d.declaration.definition? m := by
  rw [definition?, hd, Option.bind_some]

theorem not_isOpenAlong_root (hroot : scope.classes.lookup "abc.ABC" = none)
    (hobject : scope.classes.lookup "builtins.object" = none) :
    ¬ scope.IsOpenAlong ["abc.ABC", "builtins.object"] m := by
  rintro ⟨owner, howner, habstract⟩
  rcases List.mem_cons.mp (List.mem_of_find?_eq_some howner) with rfl | hmem
  · simp [definition?, hroot] at habstract
  · obtain rfl := List.mem_singleton.mp hmem
    simp [definition?, hobject] at habstract

/-- Along a linearisation, what a class defines itself comes first. -/
theorem isOpenAlong_cons_of_some {above : List String} {isAbstract : Bool}
    (h : scope.definition? name m = some isAbstract) :
    scope.IsOpenAlong (name :: above) m ↔ isAbstract = true := by
  simp [IsOpenAlong, owner?, h]

theorem isOpenAlong_cons_of_none {above : List String} (h : scope.definition? name m = none) :
    scope.IsOpenAlong (name :: above) m ↔ scope.IsOpenAlong above m := by
  simp [IsOpenAlong, owner?, h]

/-- The members that are abstract along an order. -/
def openMembers (scope : Scope) (order : List String) : List String :=
  (order.flatMap fun name =>
    ((scope.classes.lookup name).map (·.declaration.definitions.map (·.1))).getD []).filter
      (scope.IsOpenAlong order ·)

theorem mem_openMembers_iff : m ∈ scope.openMembers order ↔ scope.IsOpenAlong order m := by
  rw [openMembers, List.mem_filter, decide_eq_true_iff, and_iff_right_iff_imp]
  rintro ⟨owner, howner, habstract⟩
  obtain ⟨d, hd, hdef⟩ := Option.bind_eq_some_iff.mp habstract
  refine List.mem_flatMap.mpr ⟨owner, List.mem_of_find?_eq_some howner, ?_⟩
  rw [hd]
  exact List.mem_map.mpr ⟨_, List.mem_reverse.mp (Table.mem_of_lookup hdef), rfl⟩

/-- What comes first among the ancestors comes first for a base that has it. -/
theorem Precedes.exists_base {above : List String} {owner : String}
    (h : scope.Precedes depth name d above) (howner : scope.owner? above m = some owner) :
    ∃ base ∈ scope.supertypes d, ∃ order, scope.linearise depth base = some order ∧
      order.Sublist above ∧ scope.owner? order m = some owner := by
  obtain ⟨base, hbase, order, horder, hmem⟩ :=
    h.ancestor owner (List.mem_of_find?_eq_some howner)
  obtain ⟨order', horder', hsub⟩ := h.base base hbase
  cases horder.symm.trans horder'
  exact ⟨base, hbase, order, horder, hsub, World.find?_of_sublist hsub h.nodup howner hmem⟩

/-- Whether the bodies of all classes along an order are plain. -/
def ArePlain (scope : Scope) (order : List String) : Prop :=
  ∀ name ∈ order, ∀ d ∈ scope.classes.lookup name, d.declaration.IsPlain

instance (scope : Scope) (order : List String) : Decidable (scope.ArePlain order) :=
  inferInstanceAs (Decidable (∀ name ∈ order, ∀ d ∈ scope.classes.lookup name,
    d.declaration.IsPlain))

theorem ArePlain.subset {order' : List String} (h : scope.ArePlain order)
    (hsub : order' ⊆ order) : scope.ArePlain order' :=
  fun name hname => h name (hsub hname)

/-- **What is abstract is left open.** -/
theorem leavesOpen_of_isOpenAlong (h : scope.linearise depth name = some order)
    (hplain : scope.ArePlain order) (hopen : scope.IsOpenAlong order m) :
    scope.LeavesOpen name m := by
  induction depth generalizing name order with
  | zero => cases h
  | succ depth ih =>
    rcases of_linearise h with ⟨hnone, rfl, rfl, hobject⟩ | ⟨d, -, -, hd, -⟩
    · exact absurd hopen (not_isOpenAlong_root hnone hobject)
    · obtain ⟨above, rfl, hprecedes⟩ := precedes_of_linearise h hd
      have hown := hplain name List.mem_cons_self d hd
      cases hdef : scope.definition? name m with
      | some isAbstract =>
        rw [isOpenAlong_cons_of_some hdef] at hopen
        subst hopen
        exact .own hd (hown.mem_abstract_iff.mpr (definition?_of_lookup hd ▸ hdef))
      | none =>
        rw [isOpenAlong_cons_of_none hdef] at hopen
        obtain ⟨owner, howner, habstract⟩ := hopen
        obtain ⟨base, hbase, order', horder', hsub, howner'⟩ := hprecedes.exists_base howner
        have hplain' : scope.ArePlain order' :=
          hplain.subset fun a ha => List.mem_cons_of_mem _ (hsub.subset ha)
        refine .inherited hd hbase (ih horder' hplain' ⟨owner, howner', habstract⟩) ?_
        rw [hown.mem_concrete_iff, ← definition?_of_lookup hd, hdef]
        exact nofun

/-- **What is abstract along the linearisation of a class is what the class holds as
abstract.** -/
theorem holdsAbstract_iff (h : scope.linearise depth name = some order) :
    scope.HoldsAbstract name m ↔ scope.IsOpenAlong order m := by
  constructor
  · rintro (hdef | ⟨-, -, h', hopen⟩)
    · cases depth with
      | zero => cases h
      | succ depth =>
        rcases of_linearise h with ⟨hnone, -⟩ | ⟨-, -, -, -, -, -, rfl⟩
        · simp [definition?, hnone] at hdef
        · exact (isOpenAlong_cons_of_some hdef).mpr rfl
    · exact linearise_unique h h' ▸ hopen
  · intro hopen
    induction depth generalizing name order with
    | zero => cases h
    | succ depth ih =>
      rcases of_linearise h with ⟨hnone, rfl, rfl, hobject⟩ | ⟨d, -, -, hd, -⟩
      · exact absurd hopen (not_isOpenAlong_root hnone hobject)
      · obtain ⟨above, rfl, hprecedes⟩ := precedes_of_linearise h hd
        cases hdef : scope.definition? name m with
        | some isAbstract =>
          rw [isOpenAlong_cons_of_some hdef] at hopen
          exact .own (hopen ▸ hdef)
        | none =>
          obtain ⟨owner, howner, habstract⟩ := (isOpenAlong_cons_of_none hdef).mp hopen
          obtain ⟨base, hbase, order', horder', -, howner'⟩ := hprecedes.exists_base howner
          exact .inherited ⟨d, hd, hbase⟩ (ih horder' ⟨owner, howner', habstract⟩) h hopen

/-- Whether the bases of every class along an order agree about the members that the class
does not define itself: what is abstract for one of them is not defined for another one, or
is abstract there too. -/
def BasesAgree (scope : Scope) (order : List String) : Prop :=
  ∀ name ∈ order, ∀ d, scope.classes.lookup name = some d → ∀ member,
    scope.definition? name member = none →
    ∀ base ∈ scope.supertypes d, ∀ base' ∈ scope.supertypes d, ∀ depth order order',
    scope.linearise depth base = some order → scope.linearise depth base' = some order' →
    scope.IsOpenAlong order member → scope.owner? order' member ≠ none →
    scope.IsOpenAlong order' member

/-- Where no class has two bases, bases agree. -/
theorem basesAgree_of_single
    (h : ∀ name ∈ order, ∀ d ∈ scope.classes.lookup name, (scope.supertypes d).length ≤ 1) :
    scope.BasesAgree order := by
  intro name hname d hd m _ base hbase base' hbase' depth order order' horder horder' hopen _
  obtain rfl : base = base' := by
    have hlength := h name hname d hd
    rcases hbases : scope.supertypes d with _ | ⟨only, _ | ⟨_, _⟩⟩
    · simp [hbases] at hbase
    · rw [hbases] at hbase hbase'
      exact (List.mem_singleton.mp hbase).trans (List.mem_singleton.mp hbase').symm
    · simp [hbases] at hlength
  exact linearise_unique horder horder' ▸ hopen

theorem BasesAgree.subset {order' : List String} (h : scope.BasesAgree order)
    (hsub : order' ⊆ order) : scope.BasesAgree order' :=
  fun name hname => h name (hsub hname)

/-- **What is left open is abstract where bases agree.** -/
theorem isOpenAlong_of_leavesOpen (h : scope.linearise depth name = some order)
    (hplain : scope.ArePlain order) (hagree : scope.BasesAgree order)
    (hopen : scope.LeavesOpen name m) : scope.IsOpenAlong order m := by
  induction depth generalizing name order with
  | zero => cases h
  | succ depth ih =>
    rcases of_linearise h with ⟨hnone, -⟩ | ⟨d, -, -, hd, -⟩
    · exact absurd hopen (not_leavesOpen hnone)
    · obtain ⟨above, rfl, hprecedes⟩ := precedes_of_linearise h hd
      have hown := hplain name List.mem_cons_self d hd
      rw [leavesOpen_iff hd, hown.mem_abstract_iff, hown.mem_concrete_iff,
        ← definition?_of_lookup hd] at hopen
      cases hdef : scope.definition? name m with
      | some isAbstract =>
        rw [isOpenAlong_cons_of_some hdef]
        cases isAbstract with
        | true => rfl
        | false => simp [hdef] at hopen
      | none =>
        rw [isOpenAlong_cons_of_none hdef]
        obtain ⟨base, hbase, hleft⟩ := (hopen.resolve_left (by simp [hdef])).1
        obtain ⟨order', horder', hsub⟩ := hprecedes.base base hbase
        have hsubset : order' ⊆ name :: above :=
          fun a ha => List.mem_cons_of_mem _ (hsub.subset ha)
        have hbaseOpen := ih horder' (hplain.subset hsubset) (hagree.subset hsubset) hleft
        -- What comes first among all ancestors comes first for some base, which agrees.
        obtain ⟨owner, howner⟩ : ∃ owner, scope.owner? above m = some owner := by
          obtain ⟨first, hfirst, hdefines⟩ := hbaseOpen
          refine Option.isSome_iff_exists.mp (List.find?_isSome.mpr ⟨first, ?_, by simp [hdefines]⟩)
          exact hsub.subset (List.mem_of_find?_eq_some hfirst)
        obtain ⟨base', hbase', order'', horder'', -, howner'⟩ := hprecedes.exists_base howner
        obtain ⟨owner', hsame, habstract⟩ := hagree name List.mem_cons_self d hd m hdef base hbase
          base' hbase' depth order' order'' horder' horder'' hbaseOpen (by simp [howner'])
        cases howner'.symm.trans hsame
        exact ⟨owner, howner, habstract⟩

end Scope

/-! ## Marks -/

namespace StaticModel

variable {model scanned : StaticModel} {tree : FileTree} {reports reports' : Reports}
  {element : Element}

/-- **What a scan marks as abstract.** Above a class that has a linearisation, with plain
bodies all along, it marks every class that holds a member as abstract, and just those that
leave a member open. Where bases agree the two are the same. -/
theorem marks_abstract (hnew : model.elements = none)
    (hscan : model.scan tree reports = (scanned, reports', .ok ()))
    (hfound : scanned.found.lookup name = some element)
    (horder : scanned.scope.linearise depth name = some order)
    (hplain : scanned.scope.ArePlain order) :
    (element.modifiers.abstract = true ↔ ∃ m, scanned.scope.LeavesOpen name m) ∧
      ((∃ m, scanned.scope.HoldsAbstract name m) → element.modifiers.abstract = true) ∧
      (scanned.scope.BasesAgree order →
        (element.modifiers.abstract = true ↔ ∃ m, scanned.scope.HoldsAbstract name m)) ∧
      ∀ m, scanned.scope.HoldsAbstract name m ↔ scanned.scope.IsOpenAlong order m := by
  have hiff := abstract_iff_leavesOpen hnew hscan hfound (Scope.isGrounded_of_linearise horder)
  have hholds : ∀ m, scanned.scope.HoldsAbstract name m ↔ scanned.scope.IsOpenAlong order m :=
    fun m => Scope.holdsAbstract_iff horder
  have hmarks : (∃ m, scanned.scope.HoldsAbstract name m) → element.modifiers.abstract = true := by
    rintro ⟨m, hm⟩
    exact hiff.mpr ⟨m, Scope.leavesOpen_of_isOpenAlong horder hplain ((hholds m).mp hm)⟩
  refine ⟨hiff, hmarks, fun hagree => ⟨fun hmark => ?_, hmarks⟩, hholds⟩
  obtain ⟨m, hm⟩ := hiff.mp hmark
  exact ⟨m, (hholds m).mpr (Scope.isOpenAlong_of_leavesOpen horder hplain hagree hm)⟩

/-! ### A class that replaces what a base leaves open -/

/-- Of these classes, `B` has the abstract member of its base, and `C` has a base before it
that defines the member. -/
def mixinSource : String :=
  "import abc\nclass A(abc.ABC):\n @abc.abstractmethod\n def f(self):0\n" ++
  "class M(abc.ABC):\n def f(self):0\nclass B(A):0\nclass C(M,A):0\n"

def mixinTree : FileTree :=
  ⟨[], [(["q"], .directory), (["q", "m.py"], .file (Text.utf8Bytes mixinSource.toList))]⟩

def mixinModel : StaticModel where
  roots := [⟨.none, ["q"]⟩]
  ignoreDirs := []
  encoding := "utf-8"

def mixinScan : StaticModel × Reports × Except ScanFault Unit := mixinModel.scan mixinTree {}

/-- What a scan finds out about a class: whether it is marked as abstract, and along which
order it looks up its members. -/
def MixinFinds (name : String) (isMarked : Bool) (order : List String) : Prop :=
  (mixinScan.1.found.lookup name).map (·.modifiers.abstract) = some isMarked ∧
    mixinScan.1.scope.linearise 4 name = some order ∧ mixinScan.1.scope.ArePlain order

instance (name : String) (isMarked : Bool) (order : List String) :
    Decidable (MixinFinds name isMarked order) := inferInstanceAs (Decidable (_ ∧ _))

def mixinOrder : List String := ["m.C", "m.M", "m.A", "abc.ABC", "builtins.object"]

def chainOrder : List String := ["m.B", "m.A", "abc.ABC", "builtins.object"]

theorem finds_mixinScan : mixinScan.2.2.isOk = true ∧ MixinFinds "m.C" true mixinOrder ∧
    MixinFinds "m.B" true chainOrder ∧ mixinScan.1.scope.openMembers mixinOrder = [] ∧
    ∀ name ∈ chainOrder, ∀ d ∈ mixinScan.1.scope.classes.lookup name,
      (mixinScan.1.scope.supertypes d).length ≤ 1 := by
  decide +kernel

theorem mixinScan_eq : mixinModel.scan mixinTree {} = (mixinScan.1, mixinScan.2.1, .ok ()) := by
  have hok := finds_mixinScan.1
  rcases hscan : mixinScan with ⟨scanned, reports, fault | ⟨⟩⟩
  · rw [hscan] at hok
    cases hok
  · exact hscan

/-- The class with one base. -/
theorem marks_abstract_chain : MixinFinds "m.B" true chainOrder ∧
    mixinScan.1.scope.BasesAgree chainOrder ∧
    ∃ m, mixinScan.1.scope.HoldsAbstract "m.B" m := by
  obtain ⟨-, -, hfinds, -, hsingle⟩ := finds_mixinScan
  have hagree := Scope.basesAgree_of_single hsingle
  obtain ⟨hmark, horder, hplain⟩ := hfinds
  obtain ⟨element, hfound, hmarked⟩ := Option.map_eq_some_iff.mp hmark
  obtain ⟨-, -, hiff, -⟩ := marks_abstract rfl mixinScan_eq hfound horder hplain
  exact ⟨⟨hmark, horder, hplain⟩, hagree, (hiff hagree).mp hmarked⟩

/-- A class that is marked as abstract need not hold an abstract member. -/
theorem marked_and_concrete :
    ¬ ∀ (model scanned : StaticModel) (tree : FileTree) (reports reports' : Reports)
      (name : String) (element : Element) (depth : Nat) (order : List String),
      model.elements = none → model.scan tree reports = (scanned, reports', .ok ()) →
      scanned.found.lookup name = some element →
      scanned.scope.linearise depth name = some order → scanned.scope.ArePlain order →
      (element.modifiers.abstract = true ↔ ∃ m, scanned.scope.HoldsAbstract name m) := by
  intro h
  obtain ⟨-, ⟨hmark, horder, hplain⟩, -, hnone, -⟩ := finds_mixinScan
  obtain ⟨element, hfound, hmarked⟩ := Option.map_eq_some_iff.mp hmark
  obtain ⟨m, hholds⟩ :=
    (h _ _ _ _ _ _ _ _ _ rfl mixinScan_eq hfound horder hplain).mp hmarked
  have hmem := Scope.mem_openMembers_iff.mpr ((Scope.holdsAbstract_iff horder).mp hholds)
  rw [hnone] at hmem
  cases hmem

end StaticModel

end Symbols

end ProviderRegistry
