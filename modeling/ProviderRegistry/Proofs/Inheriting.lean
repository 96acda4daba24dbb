import Mathlib.Data.List.Perm.Subperm
import Mathlib.Logic.Relation
import ProviderRegistry.Proofs.Scanning

/-!
# Members left open

A class leaves a member open that it declares abstract, and one that a base leaves open and
that it does not replace itself. The static model answers once for every class what it
leaves open and keeps the answer; while an answer is worked out, the class counts as leaving
nothing open, which would be wrong for the classes that it derives from if it were one of
them. So answers are right for the classes above which bases come to an end, whatever the
question is (`Recursion.IsRule.asksRightly`), and these classes are marked as abstract just
when they leave a member open (`StaticModel.abstract_iff_leavesOpen`).
-/

namespace ProviderRegistry.Symbols

open Syntax

variable {scope : Scope} {name m : String} {d : Declared}
  {known : Table String (List String)} {path : List String} {depth : Nat}

namespace Scope

/-- Whether a class has another one among its bases. -/
def Inherits (scope : Scope) (name base : String) : Prop :=
  ∃ d, scope.classes.lookup name = some d ∧ base ∈ scope.supertypes d

/-- Whether bases come to an end above a class: none of those that it derives from derives
from itself. -/
def IsGrounded (scope : Scope) (name : String) : Prop :=
  Acc (fun base name => scope.Inherits name base) name

/-- The members that a class leaves open. -/
inductive LeavesOpen (scope : Scope) : String → String → Prop
  | own {name m : String} {d : Declared} : scope.classes.lookup name = some d →
      m ∈ d.declaration.members.abstract → LeavesOpen scope name m
  | inherited {name base m : String} {d : Declared} : scope.classes.lookup name = some d →
      base ∈ scope.supertypes d → LeavesOpen scope base m →
      m ∉ d.declaration.members.concrete → LeavesOpen scope name m

theorem leavesOpen_iff (hd : scope.classes.lookup name = some d) :
    scope.LeavesOpen name m ↔ m ∈ d.declaration.members.abstract ∨
      (∃ base ∈ scope.supertypes d, scope.LeavesOpen base m) ∧
        m ∉ d.declaration.members.concrete := by
  constructor
  · rintro (⟨hd', hown⟩ | ⟨hd', hbase, hopen, hnot⟩)
    · cases hd.symm.trans hd'
      exact .inl hown
    · cases hd.symm.trans hd'
      exact .inr ⟨⟨_, hbase, hopen⟩, hnot⟩
  · rintro (hown | ⟨⟨base, hbase, hopen⟩, hnot⟩)
    · exact .own hd hown
    · exact .inherited hd hbase hopen hnot

/-- A class that has not been read leaves nothing open. -/
theorem not_leavesOpen (hnone : scope.classes.lookup name = none) : ¬ scope.LeavesOpen name m := by
  rintro (⟨hd, -⟩ | ⟨hd, -, -, -⟩)
  · cases hnone.symm.trans hd
  · cases hnone.symm.trans hd

theorem IsGrounded.irrefl (h : scope.IsGrounded name) :
    ¬ Relation.TransGen scope.Inherits name name := by
  have hacc : Acc (Relation.TransGen (Function.swap scope.Inherits)) name := Acc.transGen h
  clear h
  induction hacc with
  | intro a _ ih => exact fun hself => ih a (Relation.transGen_swap.mpr hself) hself

/-! ## Answers -/

section

variable {α : Type} {Right : String → α → Prop} {known : Table String α}

/-- The answers found while those about the classes of a path are being worked out. About other
classes they are right, if bases come to an end above the class. -/
structure Underway (scope : Scope) (Right : String → α → Prop) (path : List String)
    (known : Table String α) : Prop where
  nodup : path.Nodup
  declared : ∀ p ∈ path, scope.declares p = true
  entered : ∀ p ∈ path, known.lookup p ≠ none
  right : ∀ {name answer}, known.lookup name = some answer → name ∉ path →
    scope.IsGrounded name → Right name answer

theorem Underway.length_le (h : scope.Underway Right path known) :
    path.length ≤ scope.classes.length := by
  have hsubset : path ⊆ scope.classes.map (·.1) := fun p hp =>
    Table.has_iff.mp (h.declared p hp)
  simpa using (List.subperm_of_subset h.nodup hsubset).length_le

/-- Entering a class puts it on the path, whatever it counts as until it is left. -/
theorem Underway.enter (h : scope.Underway Right path known) (hnew : known.lookup name = none)
    (hd : scope.classes.lookup name = some d) (placeholder : α) :
    scope.Underway Right (name :: path) (Table.set name placeholder known) where
  nodup := List.nodup_cons.mpr ⟨fun hmem => h.entered name hmem hnew, h.nodup⟩
  declared := List.forall_mem_cons.mpr ⟨by simp [declares, Table.has, hd], h.declared⟩
  entered := by
    refine List.forall_mem_cons.mpr ⟨by simp [Table.lookup_set_self], fun p hp => ?_⟩
    have hne : p ≠ name := fun heq => h.entered p hp (heq ▸ hnew)
    rw [Table.lookup_set_of_ne hne]
    exact h.entered p hp
  right := by
    intro other answer hlookup hnot
    obtain ⟨hne, hpath⟩ := List.ne_and_not_mem_of_not_mem_cons hnot
    rw [Table.lookup_set_of_ne hne] at hlookup
    exact h.right hlookup hpath

/-- Leaving it with the right answer takes it off. -/
theorem Underway.leave (h : scope.Underway Right (name :: path) known) {answer : α}
    (hanswer : scope.IsGrounded name → Right name answer) :
    scope.Underway Right path (Table.set name answer known) where
  nodup := (List.nodup_cons.mp h.nodup).2
  declared := fun p hp => h.declared p (List.mem_cons_of_mem _ hp)
  entered := by
    intro p hp
    have hne : p ≠ name := fun heq => (List.nodup_cons.mp h.nodup).1 (heq ▸ hp)
    rw [Table.lookup_set_of_ne hne]
    exact h.entered p (List.mem_cons_of_mem _ hp)
  right := by
    intro other found hlookup hnot
    by_cases hne : other = name
    · subst hne
      rw [Table.lookup_set_self] at hlookup
      exact Option.some.inj hlookup ▸ hanswer
    · rw [Table.lookup_set_of_ne hne] at hlookup
      exact h.right hlookup (List.not_mem_cons_of_ne_of_not_mem hne hnot)

theorem Underway.start : scope.Underway Right [] [] where
  nodup := List.nodup_nil
  declared := List.forall_mem_nil _
  entered := List.forall_mem_nil _
  right := nofun

end

end Scope

/-! ## Questions that are answered once -/

/-- A question about classes that is answered once for every class, from the answers about its
bases. -/
structure Recursion (α β : Type) where
  /-- What is said of a class that has not been read, and of one whose answer is still being worked
  out. -/
  blank : α
  /-- What has been found before any base has been looked at. -/
  start : β
  /-- Whether no other base needs to be looked at. -/
  stops : β → Bool
  /-- What has been found with a base that settles the question by its name. -/
  settled? : String → Option β
  /-- What has been found with one more answer. -/
  add : β → α → β
  /-- The answer about a class, from what has been found for its bases. -/
  answer : Declared → β → α

namespace Recursion

variable {α β : Type}

/-- What is found by looking at bases one after another. -/
def overBases (r : Recursion α β) (ask : String → Table String α → α × Table String α) :
    List String → β → Table String α → β × Table String α
  | [], found, known => (found, known)
  | base :: rest, found, known =>
    if r.stops found then (found, known)
    else
      match r.settled? base with
      | some found => overBases r ask rest found known
      | none => overBases r ask rest (r.add found (ask base known).1) (ask base known).2

/-- The answer about a class. Answers found before are in `known`. -/
def ask (r : Recursion α β) (scope : Scope) : (depth : Nat) → String → Table String α →
    α × Table String α
  | 0, _, known => (r.blank, known)
  | depth + 1, name, known =>
    match known.lookup name, scope.classes.lookup name with
    | some answer, _ => (answer, known)
    | none, none => (r.blank, known)
    | none, some d =>
      let (found, known) := r.overBases (ask r scope depth) (scope.supertypes d) r.start
        (Table.set name r.blank known)
      (r.answer d found, Table.set name (r.answer d found) known)

variable {r : Recursion α β} {Right : String → α → Prop} {known : Table String α}

theorem ask_of_some {answer : α} (h : known.lookup name = some answer) :
    r.ask scope (depth + 1) name known = (answer, known) := by
  rw [ask, h]

theorem ask_of_none (h : known.lookup name = none) (hd : scope.classes.lookup name = none) :
    r.ask scope (depth + 1) name known = (r.blank, known) := by
  rw [ask, h, hd]

theorem ask_of_declared (h : known.lookup name = none) (hd : scope.classes.lookup name = some d) :
    let result := r.overBases (r.ask scope depth) (scope.supertypes d) r.start
      (Table.set name r.blank known)
    r.ask scope (depth + 1) name known =
      (r.answer d result.1, Table.set name (r.answer d result.1) result.2) := by
  rw [ask, h, hd]

/-- What is found for bases if the answers about them are right. -/
inductive Finds (r : Recursion α β) (Right : String → α → Prop) : List String → β → β → Prop
  | nil {found} : Finds r Right [] found found
  | stops {base rest found} (h : r.stops found = true) : Finds r Right (base :: rest) found found
  | settled {base rest found next found'} (h : r.stops found = false)
      (hsettled : r.settled? base = some next) (hrest : Finds r Right rest next found') :
      Finds r Right (base :: rest) found found'
  | asked {base rest found answer found'} (h : r.stops found = false)
      (hsettled : r.settled? base = none) (hanswer : Right base answer)
      (hrest : Finds r Right rest (r.add found answer) found') :
      Finds r Right (base :: rest) found found'

/-- What makes the answers to a question right: the one about classes that have not been read,
and the one that follows from right answers about the bases. -/
structure IsRule (r : Recursion α β) (scope : Scope) (Right : String → α → Prop) : Prop where
  undeclared : ∀ {name}, scope.classes.lookup name = none → Right name r.blank
  declared : ∀ {name d found}, scope.classes.lookup name = some d →
    r.Finds Right (scope.supertypes d) r.start found → Right name (r.answer d found)

/-- An answer about a class can be asked for on a path: it leaves what is known about other
classes right, and is right itself if bases come to an end above the class. -/
def AsksRightly (r : Recursion α β) (scope : Scope) (Right : String → α → Prop)
    (path : List String) (depth : Nat) (name : String) : Prop :=
  ∀ known, scope.Underway Right path known →
    scope.Underway Right path (r.ask scope depth name known).2 ∧
      (scope.IsGrounded name → Right name (r.ask scope depth name known).1)

/-- What is found for bases is right if bases come to an end above them. -/
theorem finds_overBases {bases : List String}
    (hbases : ∀ base ∈ bases, r.AsksRightly scope Right path depth base) (found : β)
    (h : scope.Underway Right path known) :
    scope.Underway Right path (r.overBases (r.ask scope depth) bases found known).2 ∧
      ((∀ base ∈ bases, scope.IsGrounded base) →
        r.Finds Right bases found (r.overBases (r.ask scope depth) bases found known).1) := by
  induction bases generalizing found known with
  | nil => exact ⟨h, fun _ => .nil⟩
  | cons base rest ih =>
    rw [List.forall_mem_cons] at hbases
    rw [overBases]
    cases hstops : r.stops found with
    | true => exact ⟨h, fun _ => .stops hstops⟩
    | false =>
      cases hsettled : r.settled? base with
      | some next =>
        obtain ⟨hunderway, hfinds⟩ := ih hbases.2 next h
        exact ⟨hunderway, fun hground =>
          .settled hstops hsettled (hfinds (List.forall_mem_cons.mp hground).2)⟩
      | none =>
        obtain ⟨hnext, hanswer⟩ := hbases.1 known h
        obtain ⟨hunderway, hfinds⟩ := ih hbases.2 _ hnext
        refine ⟨hunderway, fun hground => ?_⟩
        rw [List.forall_mem_cons] at hground
        exact .asked hstops hsettled (hanswer hground.1) (hfinds hground.2)

/-- **Answers are right**: with depth enough for every class to be entered once, an answer
about a class above which bases come to an end is right, and so are those found on the
way. -/
theorem IsRule.asksRightly (hrule : r.IsRule scope Right) (depth : Nat) {name : String}
    {path : List String} (hbelow : ∀ p ∈ path, Relation.TransGen scope.Inherits p name)
    (hdepth : scope.classes.length < depth + path.length) :
    r.AsksRightly scope Right path depth name := by
  intro known h
  induction depth generalizing name path known with
  | zero =>
    have hlength := h.length_le
    omega
  | succ depth ih =>
    cases hknown : known.lookup name with
    | some answer =>
      rw [ask_of_some hknown]
      -- A class that is not worked out yet derives from itself if it is asked for again.
      exact ⟨h, fun hground =>
        h.right hknown (fun hpath => hground.irrefl (hbelow name hpath)) hground⟩
    | none =>
      cases hd : scope.classes.lookup name with
      | none =>
        rw [ask_of_none hknown hd]
        exact ⟨h, fun _ => hrule.undeclared hd⟩
      | some d =>
        rw [ask_of_declared hknown hd]
        have hinherits : ∀ base ∈ scope.supertypes d, scope.Inherits name base :=
          fun base hbase => ⟨d, hd, hbase⟩
        have hbases : ∀ base ∈ scope.supertypes d,
            r.AsksRightly scope Right (name :: path) depth base := by
          intro base hbase known hunderway
          have hsingle : Relation.TransGen scope.Inherits name base :=
            .single (hinherits base hbase)
          refine ih (List.forall_mem_cons.mpr ⟨hsingle, fun p hp => ?_⟩) ?_ known hunderway
          · exact (hbelow p hp).trans hsingle
          · rw [List.length_cons]
            omega
        obtain ⟨hunderway, hfinds⟩ := finds_overBases hbases r.start (h.enter hknown hd r.blank)
        have hanswer : scope.IsGrounded name → Right name (r.answer d (r.overBases
            (r.ask scope depth) (scope.supertypes d) r.start (Table.set name r.blank known)).1) := by
          intro hground
          refine hrule.declared hd (hfinds fun base hbase => ?_)
          exact Acc.inv hground (hinherits base hbase)
        exact ⟨hunderway.leave hanswer, hanswer⟩

/-- Answers about whole classes, asked for one after another. -/
theorem IsRule.inheritanceDepth (hrule : r.IsRule scope Right) (name : String) :
    r.AsksRightly scope Right [] scope.inheritanceDepth name :=
  hrule.asksRightly _ (List.forall_mem_nil _) (Nat.lt_succ_self _)

end Recursion

namespace Scope

/-! ## Open members -/

/-- The members that a class leaves open, if its bases leave open `inherited`. -/
def openGiven (d : Declared) (inherited : List String) : List String :=
  d.declaration.members.abstract ++
    inherited.filter fun m => !d.declaration.members.concrete.contains m

/-- The question which members a class leaves open. -/
def openMembersOf : Recursion (List String) (List String) where
  blank := []
  start := []
  stops _ := false
  settled? _ := none
  add inherited more := inherited ++ more
  answer := openGiven

theorem openMembersOf_overBases (ask : String → Table String (List String) →
    List String × Table String (List String)) (bases inherited : List String)
    (known : Table String (List String)) :
    openMembersOf.overBases ask bases inherited known =
      bases.foldl (fun (inherited, known) base =>
        let (more, known) := ask base known
        (inherited ++ more, known)) (inherited, known) := by
  induction bases generalizing inherited known with
  | nil => rfl
  | cons base rest ih => exact ih _ _

theorem abstractMembers_eq_ask (scope : Scope) (depth : Nat) :
    scope.abstractMembers depth = openMembersOf.ask scope depth := by
  induction depth with
  | zero => rfl
  | succ depth ih =>
    funext name known
    rw [abstractMembers, Recursion.ask, ← ih]
    cases known.lookup name with
    | some answer => rfl
    | none =>
      cases scope.classes.lookup name with
      | none => rfl
      | some d =>
        simp only [openMembersOf_overBases]
        rfl

/-- What is found for bases is what the answers about them add up to. -/
theorem exists_answers {Right : String → List String → Prop} {bases inherited found : List String}
    (h : openMembersOf.Finds Right bases inherited found) :
    ∃ answers, List.Forall₂ Right bases answers ∧ found = inherited ++ answers.flatten := by
  induction h with
  | nil => exact ⟨[], .nil, (List.append_nil _).symm⟩
  | stops h => cases h
  | settled _ hsettled _ _ => cases hsettled
  | @asked base rest inherited answer found _ _ hanswer _ ih =>
    obtain ⟨answers, hanswers, rfl⟩ := ih
    refine ⟨answer :: answers, .cons hanswer hanswers, ?_⟩
    rw [List.flatten_cons, ← List.append_assoc]
    rfl

/-- An answer about a class: the members that it leaves open. -/
def IsAnswer (scope : Scope) (name : String) (answer : List String) : Prop :=
  ∀ m, m ∈ answer ↔ scope.LeavesOpen name m

theorem mem_flatten_iff {bases : List String} {answers : List (List String)}
    (h : List.Forall₂ scope.IsAnswer bases answers) :
    m ∈ answers.flatten ↔ ∃ base ∈ bases, scope.LeavesOpen base m := by
  induction h with
  | nil => simp
  | cons hanswer _ ih =>
    rw [List.flatten_cons, List.mem_append, hanswer m, ih, List.exists_mem_cons_iff]

theorem isRule_isAnswer (scope : Scope) : openMembersOf.IsRule scope scope.IsAnswer where
  undeclared hd m := by simpa [openMembersOf] using not_leavesOpen hd
  declared {name d found} hd hfinds m := by
    obtain ⟨answers, hanswers, rfl⟩ := exists_answers hfinds
    change m ∈ openGiven d ([] ++ answers.flatten) ↔ _
    rw [List.nil_append, leavesOpen_iff hd, openGiven, List.mem_append, List.mem_filter,
      mem_flatten_iff hanswers]
    simp

end Scope

/-! ## Elements -/

namespace StaticModel

/-- The modifiers of elements say which classes are abstract. -/
def MarksOpen (scope : Scope) (elements : Table String Element) : Prop :=
  ∀ entry ∈ elements, scope.IsGrounded entry.1 →
    (entry.2.modifiers.abstract = true ↔ ∃ m, scope.LeavesOpen entry.1 m)

theorem bareElement_abstract (name : String) (d : Declared) {answers : Answers}
    (h : scope.Underway scope.IsAnswer [] answers.abstract) :
    scope.Underway scope.IsAnswer [] (bareElement scope name d answers).2.abstract ∧
      (scope.IsGrounded name →
        ((bareElement scope name d answers).1.modifiers.abstract = true ↔
          ∃ m, scope.LeavesOpen name m)) := by
  obtain ⟨hunderway, hanswer⟩ :=
    (Scope.isRule_isAnswer scope).inheritanceDepth name answers.abstract h
  rw [← Scope.abstractMembers_eq_ask] at hunderway hanswer
  refine ⟨hunderway, fun hground => ?_⟩
  change (!(scope.abstractMembers scope.inheritanceDepth name
    answers.abstract).1.isEmpty) = true ↔ _
  rw [Bool.not_eq_true', List.isEmpty_eq_false_iff_exists_mem]
  exact exists_congr (hanswer hground)

theorem marksOpen_bareElements (scope : Scope) : MarksOpen scope (bareElements scope) := by
  -- Each step of the fold adds an element that is right, and answers that are.
  have hfold {step : Table String Element × Answers → String × Declared →
        Table String Element × Answers}
      (hstep : ∀ found entry,
        (step found entry).1 =
            found.1 ++ [(entry.1, (bareElement scope entry.1 entry.2 found.2).1)] ∧
          (step found entry).2 = (bareElement scope entry.1 entry.2 found.2).2)
      (classes : Table String Declared) (found : Table String Element × Answers)
      (hmarks : MarksOpen scope found.1)
      (hunderway : scope.Underway scope.IsAnswer [] found.2.abstract) :
      MarksOpen scope (classes.foldl step found).1 := by
    induction classes generalizing found with
    | nil => exact hmarks
    | cons entry rest ih =>
      obtain ⟨hanswers, hmark⟩ := bareElement_abstract entry.1 entry.2 hunderway
      obtain ⟨hfirst, hsecond⟩ := hstep found entry
      refine ih _ ?_ (hsecond ▸ hanswers)
      rw [hfirst]
      exact List.forall_mem_append.mpr ⟨hmarks, List.forall_mem_singleton.mpr hmark⟩
  exact hfold (fun _ _ => ⟨rfl, rfl⟩) scope.classes ([], {}) (List.forall_mem_nil _) .start

/-- Reading the markers of a class leaves its modifiers as they are. -/
theorem MarksOpen.mark {elements : Table String Element} (h : MarksOpen scope elements)
    (name : String) (d : Declared) : MarksOpen scope (mark scope elements name d) :=
  forall_mem_mark (P := fun name e => scope.IsGrounded name →
    (e.modifiers.abstract = true ↔ ∃ m, scope.LeavesOpen name m)) (fun _ _ _ h => h) h name d

theorem marksOpen_elementsOf (scope : Scope) : MarksOpen scope (elementsOf scope) :=
  List.foldlRecOn _ _ (marksOpen_bareElements scope) fun _ helements _ _ => helements.mark _ _

/-- **A scan marks a class as abstract just when it leaves a member open**, if bases come to
an end above it. -/
theorem abstract_iff_leavesOpen {model scanned : StaticModel} {tree : FileTree}
    {reports reports' : Reports} {element : Element} (hnew : model.elements = none)
    (hscan : model.scan tree reports = (scanned, reports', .ok ()))
    (hfound : scanned.found.lookup name = some element) (hground : scanned.scope.IsGrounded name) :
    element.modifiers.abstract = true ↔ ∃ m, scanned.scope.LeavesOpen name m := by
  simp only [scan, hnew, Option.isSome_none, Bool.false_eq_true, if_false] at hscan
  split at hscan
  · cases (Prod.mk.inj (Prod.mk.inj hscan).2).2
  · cases hscan
    exact marksOpen_elementsOf _ _ (Table.mem_of_lookup hfound) hground

end StaticModel

end ProviderRegistry.Symbols
