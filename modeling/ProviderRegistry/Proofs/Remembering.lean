import Mathlib.Order.WellFoundedSet
import ProviderRegistry.Proofs.Inheriting
import ProviderRegistry.Proofs.Walking

/-!
# Answers that are kept

The static model works out once for every class which members it leaves open and whether it is
an enumeration, and keeps the answers. Working them out comes to an end whatever the classes
derive from, since every class that is entered has no answer yet and has one from then on
(`abstractMembers_worksOut`, `isEnumeration_decides`). Where no class derives from itself, the
answers are those of the same recursion without anything kept, and of the search for an
enumeration among all that a class derives from, whatever was asked before (`answers_kept`).
-/

namespace ProviderRegistry.Symbols

open Syntax

variable {scope : Scope} {name : String} {d : Declared} {depth : Nat}

/-! ## Classes without an answer -/

section

variable {U seen seen' : List String}

theorem unmet_le (h : seen ⊆ seen') : unmet U seen' ≤ unmet U seen := by
  rw [unmet, unmet, ← List.countP_eq_length_filter, ← List.countP_eq_length_filter]
  refine List.countP_mono_left fun other _ hother => ?_
  simp only [Bool.not_eq_true', ← Bool.not_eq_true, List.contains_iff_mem] at hother ⊢
  exact fun hmem => hother (h hmem)

end

namespace Scope

variable {α : Type} {known known' : Table String α}

/-- How many classes have no answer. -/
def unanswered (scope : Scope) (known : Table String α) : Nat :=
  unmet (scope.classes.map (·.1)) (known.map (·.1))

/-- Every class that had an answer has one. -/
def Remembers (known known' : Table String α) : Prop := known.map (·.1) ⊆ known'.map (·.1)

theorem Remembers.unanswered_le (h : Remembers known known') :
    scope.unanswered known' ≤ scope.unanswered known :=
  unmet_le h

theorem remembers_set (name : String) (answer : α) (known : Table String α) :
    Remembers known (Table.set name answer known) := by
  rw [Remembers, Table.keys_set]
  split
  · exact List.Subset.refl _
  · exact List.subset_append_left _ _

theorem unanswered_set_lt (hnew : known.lookup name = none)
    (hd : scope.classes.lookup name = some d) (answer : α) :
    scope.unanswered (Table.set name answer known) < scope.unanswered known := by
  have hclass : name ∈ scope.classes.map (·.1) := Table.has_iff.mp (by rw [Table.has, hd]; rfl)
  have hnot : name ∉ known.map (·.1) := by
    intro hmem
    have hhas := Table.has_iff.mpr hmem
    rw [Table.has, hnew] at hhas
    cases hhas
  have hkeys : name :: known.map (·.1) ⊆ (Table.set name answer known).map (·.1) := by
    rw [Table.keys_set, if_neg hnot]
    intro other hother
    rcases List.mem_cons.mp hother with rfl | hother
    · exact List.mem_append_right _ List.mem_cons_self
    · exact List.mem_append_left _ hother
  exact Nat.lt_of_le_of_lt (unmet_le hkeys) (unmet_cons_lt hclass hnot)

theorem unanswered_lt_inheritanceDepth (known : Table String α) :
    scope.unanswered known < scope.inheritanceDepth := by
  have hle : scope.unanswered known ≤ (scope.classes.map (·.1)).length :=
    List.length_filter_le _ _
  rw [List.length_map] at hle
  exact Nat.lt_succ_of_le hle

end Scope

/-! ## Working out an answer -/

namespace Recursion

open Scope

variable {α β : Type}

mutual

/-- Working out the answer about a class with no bound on how deep this goes: from the answers
that are known to the answer and those that are known then. -/
inductive Answers (r : Recursion α β) (scope : Scope) : String → Table String α → α →
    Table String α → Prop
  | kept {name : String} {answer : α} {known : Table String α}
      (h : known.lookup name = some answer) : Answers r scope name known answer known
  | undeclared {name : String} {known : Table String α} (h : known.lookup name = none)
      (hd : scope.classes.lookup name = none) : Answers r scope name known r.blank known
  | declared {name : String} {d : Declared} {found : β} {known known' : Table String α}
      (h : known.lookup name = none) (hd : scope.classes.lookup name = some d)
      (hbases : Gathers r scope (scope.supertypes d) r.start (Table.set name r.blank known)
        found known') :
      Answers r scope name known (r.answer d found) (Table.set name (r.answer d found) known')

/-- Looking at bases one after another, with no bound on how deep this goes. -/
inductive Gathers (r : Recursion α β) (scope : Scope) : List String → β → Table String α → β →
    Table String α → Prop
  | nil {found : β} {known : Table String α} : Gathers r scope [] found known found known
  | stops {base : String} {rest : List String} {found : β} {known : Table String α}
      (h : r.stops found = true) : Gathers r scope (base :: rest) found known found known
  | settled {base : String} {rest : List String} {found next found' : β}
      {known known' : Table String α} (h : r.stops found = false)
      (hsettled : r.settled? base = some next)
      (hrest : Gathers r scope rest next known found' known') :
      Gathers r scope (base :: rest) found known found' known'
  | asked {base : String} {rest : List String} {found found' : β} {answer : α}
      {known middle known' : Table String α} (h : r.stops found = false)
      (hsettled : r.settled? base = none) (hbase : Answers r scope base known answer middle)
      (hrest : Gathers r scope rest (r.add found answer) middle found' known') :
      Gathers r scope (base :: rest) found known found' known'

end

variable {r : Recursion α β} {known : Table String α}

/-- Working out the answer about a class comes to an end within a depth that exceeds the number
of classes without an answer. -/
def EndsWithin (r : Recursion α β) (scope : Scope) (depth : Nat) (name : String) : Prop :=
  ∀ known, scope.unanswered known < depth →
    r.Answers scope name known (r.ask scope depth name known).1 (r.ask scope depth name known).2 ∧
      Remembers known (r.ask scope depth name known).2

theorem gathers_overBases {bases : List String}
    (hbases : ∀ base ∈ bases, r.EndsWithin scope depth base) (found : β)
    (hknown : scope.unanswered known < depth) :
    r.Gathers scope bases found known (r.overBases (r.ask scope depth) bases found known).1
        (r.overBases (r.ask scope depth) bases found known).2 ∧
      Remembers known (r.overBases (r.ask scope depth) bases found known).2 := by
  induction bases generalizing found known with
  | nil => exact ⟨.nil, List.Subset.refl _⟩
  | cons base rest ih =>
    rw [List.forall_mem_cons] at hbases
    rw [overBases]
    cases hstops : r.stops found with
    | true => exact ⟨.stops hstops, List.Subset.refl _⟩
    | false =>
      cases hsettled : r.settled? base with
      | some next =>
        obtain ⟨hgathers, hremembers⟩ := ih hbases.2 next hknown
        exact ⟨.settled hstops hsettled hgathers, hremembers⟩
      | none =>
        obtain ⟨hanswers, hfirst⟩ := hbases.1 known hknown
        have hmiddle := Nat.lt_of_le_of_lt hfirst.unanswered_le hknown
        obtain ⟨hgathers, hremembers⟩ := ih hbases.2 _ hmiddle
        exact ⟨.asked hstops hsettled hanswers hgathers, List.Subset.trans hfirst hremembers⟩

/-- **Working out an answer comes to an end**, whatever classes derive from and whatever has been
found before: each class that is entered had no answer, and has one from then on. -/
theorem endsWithin (r : Recursion α β) (scope : Scope) (depth : Nat) (name : String) :
    r.EndsWithin scope depth name := by
  induction depth generalizing name with
  | zero => exact fun known hdepth => absurd hdepth (Nat.not_lt_zero _)
  | succ depth ih =>
    intro known hdepth
    cases hknown : known.lookup name with
    | some answer =>
      rw [ask_of_some hknown]
      exact ⟨.kept hknown, List.Subset.refl _⟩
    | none =>
      cases hd : scope.classes.lookup name with
      | none =>
        rw [ask_of_none hknown hd]
        exact ⟨.undeclared hknown hd, List.Subset.refl _⟩
      | some d =>
        rw [ask_of_declared hknown hd]
        have hfewer := unanswered_set_lt hknown hd r.blank
        have hentered : scope.unanswered (Table.set name r.blank known) < depth := by omega
        obtain ⟨hgathers, hremembers⟩ :=
          gathers_overBases (fun base _ => ih base) r.start hentered
        refine ⟨.declared hknown hd hgathers, ?_⟩
        have hset := List.Subset.trans (remembers_set name r.blank known) hremembers
        exact List.Subset.trans hset (remembers_set _ _ _)

/-- The answers that are known after questions about some classes. -/
def after (r : Recursion α β) (scope : Scope) (asked : List String) : Table String α :=
  asked.foldl (fun known name => (r.ask scope scope.inheritanceDepth name known).2) []

/-- Whatever is asked, the answers that are kept are right. -/
theorem IsRule.underway_after {Right : String → α → Prop} (hrule : r.IsRule scope Right)
    (asked : List String) : scope.Underway Right [] (r.after scope asked) :=
  List.foldlRecOn _ _ .start fun known hknown name _ => (hrule.inheritanceDepth name known hknown).1

/-- Whatever was asked before, the answer about a class is right if bases come to an end above
it. -/
theorem IsRule.right_after {Right : String → α → Prop} (hrule : r.IsRule scope Right)
    (asked : List String) (hground : scope.IsGrounded name) :
    Right name (r.ask scope scope.inheritanceDepth name (r.after scope asked)).1 :=
  (hrule.inheritanceDepth name _ (hrule.underway_after asked)).2 hground

end Recursion

namespace Scope

/-! ## Hierarchies without circles -/

/-- No class derives from itself. -/
def IsAcyclic (scope : Scope) : Prop := ∀ name, ¬ Relation.TransGen scope.Inherits name name

/-- Where each base stands above its class, no class derives from itself. -/
theorem isAcyclic_of_height (height : String → Nat)
    (h : ∀ name base, scope.Inherits name base → height base < height name) : scope.IsAcyclic := by
  have habove : ∀ name base, Relation.TransGen scope.Inherits name base →
      height base < height name := by
    intro name base hchain
    induction hchain with
    | single hstep => exact h _ _ hstep
    | tail _ hstep ih => exact Nat.lt_trans (h _ _ hstep) ih
  exact fun name hself => Nat.lt_irrefl _ (habove name name hself)

/-- Classes are finitely many, so that bases come to an end if no class derives from itself. -/
theorem IsAcyclic.wellFounded (h : scope.IsAcyclic) :
    WellFounded fun base name => scope.Inherits name base := by
  let below (base name : String) : Prop := Relation.TransGen scope.Inherits name base
  have horder : IsStrictOrder String below :=
    { irrefl := h
      trans := fun _ _ _ hab hbc => Relation.TransGen.trans hbc hab }
  have hdeclared : {name | name ∈ scope.classes.map (·.1)}.Finite := List.finite_toSet _
  have hbelow := Set.wellFoundedOn_iff.mp (hdeclared.wellFoundedOn (r := below))
  -- A class that has not been read has no bases, and is none of those that are finitely many.
  refine ⟨fun name => hbelow.induction name fun name ih => ⟨name, fun base hbase => ?_⟩⟩
  have hclass {name base : String} (hinherits : scope.Inherits name base) :
      name ∈ scope.classes.map (·.1) := by
    obtain ⟨d, hd, -⟩ := hinherits
    exact Table.has_iff.mp (by rw [Table.has, hd]; rfl)
  by_cases hmem : base ∈ scope.classes.map (·.1)
  · exact ih base ⟨.single hbase, hmem, hclass hbase⟩
  · exact ⟨base, fun other hother => absurd (hclass hother) hmem⟩

/-! ## Open members -/

/-- The members that a class leaves open, worked out anew for every class that is asked for. -/
def abstractMembersAnew (scope : Scope) (h : scope.IsAcyclic) (name : String) : List String :=
  match _hd : scope.classes.lookup name with
  | none => []
  | some d => openGiven d
    ((scope.supertypes d).attach.flatMap fun base => abstractMembersAnew scope h base.1)
termination_by h.wellFounded.wrap name
decreasing_by exact ⟨d, _hd, base.2⟩

theorem abstractMembersAnew_of_none (h : scope.IsAcyclic)
    (hd : scope.classes.lookup name = none) : scope.abstractMembersAnew h name = [] := by
  rw [abstractMembersAnew]
  split
  · rfl
  · next d hsome => cases hd.symm.trans hsome

/-- Its own abstract members, and those of its bases less its own concrete ones. -/
theorem abstractMembersAnew_of_declared (h : scope.IsAcyclic)
    (hd : scope.classes.lookup name = some d) : scope.abstractMembersAnew h name =
      openGiven d ((scope.supertypes d).flatMap (scope.abstractMembersAnew h)) := by
  rw [abstractMembersAnew]
  split
  · next hnone => cases hd.symm.trans hnone
  · next d' hsome =>
    cases hd.symm.trans hsome
    rw [List.flatMap_subtype fun _ _ => rfl, List.unattach_attach]

/-- Working out what classes leave open agrees with doing so anew every time. -/
theorem isRule_abstractMembersAnew (h : scope.IsAcyclic) :
    openMembersOf.IsRule scope fun name answer => answer = scope.abstractMembersAnew h name where
  undeclared hd := (abstractMembersAnew_of_none h hd).symm
  declared {name d found} hd hfinds := by
    obtain ⟨answers, hanswers, rfl⟩ := exists_answers hfinds
    have hmap : (scope.supertypes d).map (scope.abstractMembersAnew h) = answers := by
      rw [← List.forall₂_eq_eq_eq, List.forall₂_map_left_iff]
      exact hanswers.imp fun _ _ hanswer => hanswer.symm
    rw [abstractMembersAnew_of_declared h hd, List.flatMap_def, hmap]
    rfl

/-! ## Enumerations -/

/-- The question whether a class is an enumeration. -/
def enumerationsOf : Recursion Bool Bool where
  blank := false
  start := false
  stops found := found
  settled? base := if enumerationBases.contains base then some true else none
  add _ answer := answer
  answer _ found := found

/-- What has been found with one more base, unless an enumeration has been found before. -/
def tryBase (ask : String → Table String Bool → Bool × Table String Bool)
    (found : Bool × Table String Bool) (base : String) : Bool × Table String Bool :=
  if found.1 then (true, found.2)
  else if enumerationBases.contains base then (true, found.2)
  else ask base found.2

theorem enumerationsOf_overBases (ask : String → Table String Bool → Bool × Table String Bool)
    (bases : List String) (found : Bool) (known : Table String Bool) :
    enumerationsOf.overBases ask bases found known = bases.foldl (tryBase ask) (found, known) := by
  induction bases generalizing found known with
  | nil => rfl
  | cons base rest ih =>
    rw [Recursion.overBases, List.foldl_cons]
    cases found with
    | true =>
      -- Once one has been found, the other bases are passed over.
      have hrest : enumerationsOf.overBases ask rest true known = (true, known) := by
        cases rest <;> rfl
      exact hrest.symm.trans (ih true known)
    | false =>
      cases hroot : enumerationBases.contains base with
      | true =>
        have hsettled : enumerationsOf.settled? base = some true := if_pos hroot
        have htry : tryBase ask (false, known) base = (true, known) := by
          rw [tryBase, hroot]
          rfl
        rw [hsettled, htry]
        exact ih true known
      | false =>
        have hsettled : enumerationsOf.settled? base = none :=
          if_neg (Bool.eq_false_iff.mp hroot)
        have htry : tryBase ask (false, known) base = ask base known := by
          rw [tryBase, hroot]
          rfl
        rw [hsettled, htry]
        exact ih (ask base known).1 (ask base known).2

theorem isEnumeration_eq_ask (scope : Scope) (depth : Nat) :
    scope.isEnumeration depth = enumerationsOf.ask scope depth := by
  induction depth with
  | zero => rfl
  | succ depth ih =>
    funext name known
    rw [isEnumeration, Recursion.ask, ← ih]
    cases known.lookup name with
    | some answer => rfl
    | none =>
      cases scope.classes.lookup name with
      | none => rfl
      | some d =>
        simp only [enumerationsOf_overBases]
        rfl

/-- An enumeration is among all that a class derives from. -/
def DerivesFromEnumeration (scope : Scope) (name : String) : Prop :=
  ∃ base ∈ enumerationBases, Relation.TransGen scope.Inherits name base

theorem not_derivesFromEnumeration (hd : scope.classes.lookup name = none) :
    ¬ scope.DerivesFromEnumeration name := by
  rintro ⟨root, -, hchain⟩
  obtain ⟨base, ⟨d, hsome, -⟩, -⟩ := Relation.TransGen.head'_iff.mp hchain
  cases hd.symm.trans hsome

theorem derivesFromEnumeration_iff (hd : scope.classes.lookup name = some d) :
    scope.DerivesFromEnumeration name ↔ ∃ base ∈ scope.supertypes d,
      base ∈ enumerationBases ∨ scope.DerivesFromEnumeration base := by
  constructor
  · rintro ⟨root, hroot, hchain⟩
    obtain ⟨base, ⟨d', hsome, hbase⟩, habove⟩ := Relation.TransGen.head'_iff.mp hchain
    cases hd.symm.trans hsome
    refine ⟨base, hbase, ?_⟩
    rcases Relation.reflTransGen_iff_eq_or_transGen.mp habove with rfl | habove
    · exact .inl hroot
    · exact .inr ⟨root, hroot, habove⟩
  · rintro ⟨base, hbase, hroot | ⟨root, hroot, hchain⟩⟩
    · exact ⟨base, hroot, .single ⟨d, hd, hbase⟩⟩
    · exact ⟨root, hroot, .head ⟨d, hd, hbase⟩ hchain⟩

/-- One of several bases is an enumeration, or derives from one, if that is what is found. -/
theorem found_iff {bases : List String} {found found' : Bool}
    (h : enumerationsOf.Finds (fun name answer => answer = true ↔ scope.DerivesFromEnumeration name)
      bases found found') :
    found' = true ↔ found = true ∨
      ∃ base ∈ bases, base ∈ enumerationBases ∨ scope.DerivesFromEnumeration base := by
  induction h with
  | nil => simp
  | stops h => exact iff_of_true h (.inl h)
  | @settled base rest found next found' _ hsettled _ ih =>
    obtain ⟨hroot, hnext⟩ := Option.ite_none_right_eq_some.mp hsettled
    obtain rfl : true = next := Option.some.inj hnext
    rw [ih]
    exact iff_of_true (.inl rfl)
      (.inr ⟨base, List.mem_cons_self, .inl (List.contains_iff_mem.mp hroot)⟩)
  | @asked base rest found answer found' hnot hsettled hanswer _ ih =>
    have hroot : base ∉ enumerationBases := by
      intro hroot
      have hcontains : enumerationBases.contains base = true := List.contains_iff_mem.mpr hroot
      simp only [enumerationsOf, hcontains, if_true] at hsettled
      cases hsettled
    have hstart : ¬ found = true := Bool.not_eq_true found ▸ hnot
    rw [ih, or_iff_right hstart, List.exists_mem_cons_iff, or_iff_right hroot]
    exact or_congr_left hanswer

/-- Looking for enumerations finds those that a class derives from. -/
theorem isRule_derivesFromEnumeration (scope : Scope) : enumerationsOf.IsRule scope
    fun name answer => answer = true ↔ scope.DerivesFromEnumeration name where
  undeclared hd := iff_of_false Bool.false_ne_true (not_derivesFromEnumeration hd)
  declared {name d found} hd hfinds := by
    rw [derivesFromEnumeration_iff hd]
    exact (found_iff hfinds).trans (or_iff_right Bool.false_ne_true)

/-! ## Both questions -/

/-- **Answers that are kept make no difference.** Working out what a class leaves open and
whether it is an enumeration comes to an end whatever classes derive from, circles included. And
where no class derives from itself, whatever was asked before: a class leaves open what it is
found to leave open when nothing is kept, and it is an enumeration if one is among all that it
derives from. -/
theorem answers_kept (scope : Scope) :
    (∀ name known, openMembersOf.Answers scope name known
      (scope.abstractMembers scope.inheritanceDepth name known).1
      (scope.abstractMembers scope.inheritanceDepth name known).2) ∧
    (∀ name known, enumerationsOf.Answers scope name known
      (scope.isEnumeration scope.inheritanceDepth name known).1
      (scope.isEnumeration scope.inheritanceDepth name known).2) ∧
    ∀ (h : scope.IsAcyclic) (asked : List String) (name : String),
      (scope.abstractMembers scope.inheritanceDepth name
        (openMembersOf.after scope asked)).1 = scope.abstractMembersAnew h name ∧
      ((scope.isEnumeration scope.inheritanceDepth name
        (enumerationsOf.after scope asked)).1 = true ↔
          ∃ base ∈ enumerationBases, Relation.TransGen scope.Inherits name base) := by
  simp only [abstractMembers_eq_ask, isEnumeration_eq_ask]
  refine ⟨fun name known => ?_, fun name known => ?_, fun h asked name => ?_⟩
  · exact (openMembersOf.endsWithin scope _ name known (unanswered_lt_inheritanceDepth known)).1
  · exact (enumerationsOf.endsWithin scope _ name known (unanswered_lt_inheritanceDepth known)).1
  · have hground : scope.IsGrounded name := h.wellFounded.apply name
    exact ⟨(isRule_abstractMembersAnew h).right_after asked hground,
      (isRule_derivesFromEnumeration scope).right_after asked hground⟩

/-! ### A class with two bases that have one in common -/

/-- Of these classes, `Base` has an abstract member that `Right` replaces, `Both` derives from
`Left` and `Right`, and `Shade` from an enumeration. -/
def diamondModule : SourceModule where
  name := "m"
  path := ⟨.none, ["m.py"]⟩
  isPackage := false
  imports := [("Enum", "enum.Enum")]
  classes :=
    let base (text : String) (h : Text.isIdentifier text.toList = true) : Expr := .name ⟨text, h⟩
    let member (decorators : List Expr) : Stmt := .functionDef ⟨"area", by decide⟩ decorators []
    [ ⟨"Both", 1, [base "Left" (by decide), base "Right" (by decide)], [], []⟩,
      ⟨"Base", 2, [], [], [member [base "abstractmethod" (by decide)]]⟩,
      ⟨"Left", 3, [base "Base" (by decide)], [], []⟩,
      ⟨"Right", 4, [base "Base" (by decide)], [], [member []]⟩,
      ⟨"Color", 5, [base "Enum" (by decide)], [], []⟩,
      ⟨"Shade", 6, [base "Color" (by decide)], [], []⟩ ]

def diamond : Scope := ({} : Scope).add diamondModule

/-- How far classes stand below those that have no bases. -/
def diamondHeight (name : String) : Nat :=
  if name = "m.Both" then 3
  else if name ∈ ["m.Left", "m.Right", "m.Shade"] then 2
  else if name ∈ ["m.Base", "m.Color"] then 1
  else 0

theorem isAcyclic_diamond : diamond.IsAcyclic := by
  have hheight : ∀ entry ∈ diamond.classes, ∀ base ∈ diamond.supertypes entry.2,
      diamondHeight base < diamondHeight entry.1 := by
    decide +kernel
  refine isAcyclic_of_height diamondHeight fun name base hinherits => ?_
  obtain ⟨d, hd, hbase⟩ := hinherits
  exact hheight (name, d) (Table.mem_of_lookup hd) base hbase

/-- The bases of a class are asked about before it, or after it. -/
theorem answers_kept_diamond : ∃ h : diamond.IsAcyclic,
    (diamond.abstractMembers diamond.inheritanceDepth "m.Both"
      (openMembersOf.after diamond ["m.Left", "m.Shade"])).1 = ["area"] ∧
    diamond.abstractMembersAnew h "m.Both" = ["area"] ∧
    (diamond.isEnumeration diamond.inheritanceDepth "m.Shade"
      (enumerationsOf.after diamond ["m.Both"])).1 = true ∧
    ∃ base ∈ enumerationBases, Relation.TransGen diamond.Inherits "m.Shade" base := by
  obtain ⟨-, -, hkept⟩ := answers_kept diamond
  have hopen : (diamond.abstractMembers diamond.inheritanceDepth "m.Both"
      (openMembersOf.after diamond ["m.Left", "m.Shade"])).1 = ["area"] := by
    decide +kernel
  have henumeration : (diamond.isEnumeration diamond.inheritanceDepth "m.Shade"
      (enumerationsOf.after diamond ["m.Both"])).1 = true := by
    decide +kernel
  have hanew := (hkept isAcyclic_diamond ["m.Left", "m.Shade"] "m.Both").1
  have hderives := (hkept isAcyclic_diamond ["m.Both"] "m.Shade").2
  exact ⟨isAcyclic_diamond, hopen, hanew.symm.trans hopen, henumeration,
    hderives.mp henumeration⟩

end Scope

end ProviderRegistry.Symbols
