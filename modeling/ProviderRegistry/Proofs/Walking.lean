import Mathlib.Logic.Relation
import ProviderRegistry.Proofs.Referring

/-!
# Walks to a contract

A class inherits from a contract if a walk over the names of supertypes comes to it. The walk
looks at every name once (`lookThrough_cases`), so that it comes to an end, and a bound on its
steps that counts the names changes nothing (`ends_walkUp`). At its end it has found the contract
exactly when a chain of supertypes leads there (`Ends.eq_true_iff`,
`StaticModel.inherits_iff_reaches`).
-/

namespace ProviderRegistry.Symbols

/-- A class has a name, or a chain of supertypes leads from it to this name. -/
inductive Reaches (ask : String → Option Element) (target : String) : Element → Prop
  | self {e : Element} (h : e.qualifiedName = target) : Reaches ask target e
  | base {e : Element} (h : target ∈ e.supertypes) : Reaches ask target e
  | up {e parent : Element} {name : String} (h : name ∈ e.supertypes)
      (hparent : ask name = some parent) (above : Reaches ask target parent) :
      Reaches ask target e

/-- A class lists a supertype that is the name of another one. -/
def ListsBase (ask : String → Option Element) (e above : Element) : Prop :=
  ∃ name ∈ e.supertypes, ask name = some above

variable {ask : String → Option Element} {target : String} {names seen seen' U : List String}
  {queue queue' : List Element} {e : Element}

/-- A chain of supertypes leads to a class that has the name, or that lists it. -/
theorem reaches_iff : Reaches ask target e ↔ ∃ above, Relation.ReflTransGen (ListsBase ask) e above ∧
    (above.qualifiedName = target ∨ target ∈ above.supertypes) := by
  constructor
  · intro h
    induction h with
    | @self e hname => exact ⟨e, .refl, .inl hname⟩
    | @base e hmem => exact ⟨e, .refl, .inr hmem⟩
    | @up e parent name hname hparent _ ih =>
      obtain ⟨above, hchain, habove⟩ := ih
      exact ⟨above, .head ⟨name, hname, hparent⟩ hchain, habove⟩
  · rintro ⟨above, hchain, habove⟩
    induction hchain using Relation.ReflTransGen.head_induction_on with
    | refl => exact habove.elim .self .base
    | head hstep _ ih =>
      obtain ⟨name, hname, hparent⟩ := hstep
      exact .up hname hparent ih

/-! ## One class -/

/-- How many names have not been met. -/
def unmet (U seen : List String) : Nat := (U.filter fun name => !seen.contains name).length

theorem unmet_cons_lt {name : String} (hU : name ∈ U) (hnew : name ∉ seen) :
    unmet U (name :: seen) < unmet U seen := by
  have hfilter : U.filter (fun other => !(name :: seen).contains other) =
      (U.filter fun other => !seen.contains other).filter (· != name) := by
    rw [List.filter_filter]
    refine List.filter_congr fun other _ => ?_
    rw [List.contains_cons, Bool.not_or]
    rfl
  rw [unmet, unmet, hfilter]
  refine List.length_filter_lt_length_iff_exists.mpr ⟨name, ?_, by simp⟩
  exact List.mem_filter.mpr ⟨hU, by simpa using hnew⟩

/-- What looking through the supertypes of a class leaves: all of them have been met, and the
classes of those that are new are still to be looked at. -/
structure Looked (ask : String → Option Element) (U names seen : List String)
    (queue : List Element) (seen' : List String) (queue' : List Element) : Prop where
  met : names ⊆ seen'
  keepsSeen : seen ⊆ seen'
  keepsQueue : queue ⊆ queue'
  isNew : ∀ name ∈ seen', name ∈ seen ∨ ∀ e, ask name = some e → e ∈ queue'
  queued : ∀ e ∈ queue', e ∈ queue ∨ ∃ name ∈ names, ask name = some e
  length : queue'.length + unmet U seen' ≤ queue.length + unmet U seen

namespace Looked

variable {name : String} {rest : List String}

/-- A name that has been met changes nothing. -/
theorem skip (h : Looked ask U rest seen queue seen' queue') (hseen : name ∈ seen) :
    Looked ask U (name :: rest) seen queue seen' queue' where
  met := List.cons_subset.mpr ⟨h.keepsSeen hseen, h.met⟩
  keepsSeen := h.keepsSeen
  keepsQueue := h.keepsQueue
  isNew := h.isNew
  queued e he := by
    refine (h.queued e he).imp_right ?_
    rintro ⟨other, hother, hask⟩
    exact ⟨other, List.mem_cons_of_mem _ hother, hask⟩
  length := h.length

/-- A new name has been met now, and its class is put into the queue. -/
theorem push (h : Looked ask U rest (name :: seen) (queue ++ (ask name).toList) seen' queue')
    (hU : name ∈ U) (hnew : name ∉ seen) : Looked ask U (name :: rest) seen queue seen' queue' where
  met := List.cons_subset.mpr ⟨h.keepsSeen List.mem_cons_self, h.met⟩
  keepsSeen := (List.cons_subset.mp h.keepsSeen).2
  keepsQueue := (List.append_subset.mp h.keepsQueue).1
  isNew other hother := by
    rcases h.isNew other hother with hother | hasked
    · rcases List.mem_cons.mp hother with rfl | hother
      · exact .inr fun e hask =>
          (List.append_subset.mp h.keepsQueue).2 (Option.mem_toList.mpr hask)
      · exact .inl hother
    · exact .inr hasked
  queued e he := by
    rcases h.queued e he with he | ⟨other, hother, hask⟩
    · rcases List.mem_append.mp he with he | he
      · exact .inl he
      · exact .inr ⟨name, List.mem_cons_self, Option.mem_toList.mp he⟩
    · exact .inr ⟨other, List.mem_cons_of_mem _ hother, hask⟩
  length := by
    have hlength := h.length
    have hunmet := unmet_cons_lt hU hnew
    have hadded : (ask name).toList.length ≤ 1 := by
      cases ask name with
      | none => exact Nat.zero_le 1
      | some e => exact Nat.le_refl 1
    rw [List.length_append] at hlength
    omega

end Looked

theorem lookThrough_cases (ask : String → Option Element) (target : String) (hU : names ⊆ U)
    (seen : List String) (queue : List Element) :
    (target ∈ names ∧ Id.run (lookThrough ask target names seen queue) = .found) ∨
      target ∉ names ∧ ∃ seen' queue',
        Id.run (lookThrough ask target names seen queue) = .further seen' queue' ∧
          Looked ask U names seen queue seen' queue' := by
  induction names generalizing seen queue with
  | nil =>
    refine .inr ⟨List.not_mem_nil, seen, queue, rfl, List.nil_subset _, List.Subset.refl _,
      List.Subset.refl _, fun name hname => .inl hname, fun e he => .inl he, Nat.le_refl _⟩
  | cons name rest ih =>
    have hname := hU List.mem_cons_self
    have hrest : rest ⊆ U := fun other hother => hU (List.mem_cons_of_mem _ hother)
    rw [lookThrough]
    by_cases htarget : name = target
    · exact .inl ⟨htarget ▸ List.mem_cons_self, by rw [if_pos htarget]; rfl⟩
    rw [if_neg htarget]
    have hmem : target ∈ name :: rest ↔ target ∈ rest := by
      rw [List.mem_cons]
      exact or_iff_right (Ne.symm htarget)
    rw [hmem]
    by_cases hseen : seen.contains name = true
    · rw [if_pos hseen]
      refine (ih hrest seen queue).imp_right ?_
      rintro ⟨hnone, seen', queue', hlook, h⟩
      exact ⟨hnone, seen', queue', hlook, h.skip (List.contains_iff_mem.mp hseen)⟩
    · rw [if_neg hseen]
      have hnew : name ∉ seen := fun hmem => hseen (List.contains_iff_mem.mpr hmem)
      refine (ih hrest (name :: seen) (queue ++ (ask name).toList)).imp_right ?_
      rintro ⟨hnone, seen', queue', hlook, h⟩
      exact ⟨hnone, seen', queue', hlook, h.push hname hnew⟩

/-! ## Whole walks -/

/-- A walk that may go on for as long as there are classes to be looked at comes to an end, with
the answer whether it has met the target. -/
inductive Ends (ask : String → Option Element) (target : String) :
    (queue : List Element) → (seen : List String) → (answer : Bool) → Prop
  | nowhere {seen : List String} : Ends ask target [] seen false
  | self {current : Element} {queue : List Element} {seen : List String}
      (h : current.qualifiedName = target) : Ends ask target (current :: queue) seen true
  | base {current : Element} {queue : List Element} {seen : List String}
      (hne : current.qualifiedName ≠ target)
      (hlook : Id.run (lookThrough ask target current.supertypes seen queue) = .found) :
      Ends ask target (current :: queue) seen true
  | further {current : Element} {queue queue' : List Element} {seen seen' : List String}
      {answer : Bool} (hne : current.qualifiedName ≠ target)
      (hlook : Id.run (lookThrough ask target current.supertypes seen queue) =
        .further seen' queue')
      (h : Ends ask target queue' seen' answer) : Ends ask target (current :: queue) seen answer

/-- **A walk comes to an end** within one step for each class in its queue and one for each name
that it has not met. -/
theorem ends_walkUp {steps : Nat} (hU : ∀ name e, ask name = some e → e.supertypes ⊆ U)
    (hqueue : ∀ e ∈ queue, e.supertypes ⊆ U) (hsteps : queue.length + unmet U seen ≤ steps) :
    Ends ask target queue seen (Id.run (walkUp ask target steps queue seen)) := by
  induction steps generalizing queue seen with
  | zero =>
    obtain rfl : queue = [] := List.length_eq_zero_iff.mp (by omega)
    exact .nowhere
  | succ steps ih =>
    cases queue with
    | nil => exact .nowhere
    | cons current queue =>
      rw [List.forall_mem_cons] at hqueue
      rw [walkUp]
      by_cases hne : current.qualifiedName = target
      · rw [if_pos hne]
        exact .self hne
      rw [if_neg hne, Id.run_bind]
      rcases lookThrough_cases ask target hqueue.1 seen queue with
        ⟨-, hlook⟩ | ⟨-, seen', queue', hlook, hlooked⟩
      · rw [hlook]
        exact .base hne hlook
      · rw [hlook]
        refine .further hne hlook (ih (fun e he => ?_) ?_)
        · rcases hlooked.queued e he with he | ⟨name, -, hask⟩
          · exact hqueue.2 e he
          · exact hU name e hask
        · have hlength := hlooked.length
          rw [List.length_cons] at hsteps
          omega

/-- A walk has one answer. -/
theorem Ends.unique {answer answer' : Bool} (h : Ends ask target queue seen answer)
    (h' : Ends ask target queue seen answer') : answer = answer' := by
  induction h with
  | nowhere =>
    cases h'
    rfl
  | self hself =>
    cases h' with
    | self _ => rfl
    | base _ _ => rfl
    | further hne _ _ => exact absurd hself hne
  | base hne hlook =>
    cases h' with
    | self _ => rfl
    | base _ _ => rfl
    | further _ hlook' _ => cases hlook.symm.trans hlook'
  | further hne hlook _ ih =>
    cases h' with
    | self hself => exact absurd hself hne
    | base _ hlook' => cases hlook.symm.trans hlook'
    | further _ hlook' hrest =>
      cases hlook.symm.trans hlook'
      exact ih hrest

/-- A class has been looked at and did not lead to the target directly, and all its supertypes
have been met. -/
structure IsDone (target : String) (seen : List String) (e : Element) : Prop where
  ne : e.qualifiedName ≠ target
  supertypes : ∀ name ∈ e.supertypes, name ≠ target ∧ name ∈ seen

theorem IsDone.mono (h : IsDone target seen e) (hsub : seen ⊆ seen') : IsDone target seen' e :=
  ⟨h.ne, fun name hname => ⟨(h.supertypes name hname).1, hsub (h.supertypes name hname).2⟩⟩

/-- From classes that are done nothing leads to the target. -/
theorem not_reaches_of_isDone (hseen : ∀ name ∈ seen, ∀ e, ask name = some e →
    IsDone target seen e) (h : IsDone target seen e) : ¬ Reaches ask target e := by
  intro hreaches
  induction hreaches with
  | self hname => exact h.ne hname
  | base hmem => exact (h.supertypes target hmem).1 rfl
  | @up e parent name hname hparent _ ih =>
    exact ih (hseen name (h.supertypes name hname).2 parent hparent)

/-- Where a walk is: each class that it has met is done or still to be looked at. -/
structure Walked (ask : String → Option Element) (target : String) (start : Element)
    (queue : List Element) (seen : List String) : Prop where
  start : start ∈ queue ∨ IsDone target seen start
  met : ∀ name ∈ seen, ∀ e, ask name = some e → e ∈ queue ∨ IsDone target seen e

theorem Walked.next {start current : Element} (h : Walked ask target start (current :: queue) seen)
    (hne : current.qualifiedName ≠ target) (htarget : target ∉ current.supertypes)
    (hlooked : Looked ask U current.supertypes seen queue seen' queue') :
    Walked ask target start queue' seen' := by
  have hdone : IsDone target seen' current :=
    ⟨hne, fun name hname => ⟨fun heq => htarget (heq ▸ hname), hlooked.met hname⟩⟩
  -- What was still to be looked at is, or was the class that is done now.
  have hsettles {e : Element} (he : e ∈ current :: queue ∨ IsDone target seen e) :
      e ∈ queue' ∨ IsDone target seen' e := by
    rcases he with he | he
    · rcases List.mem_cons.mp he with rfl | he
      · exact .inr hdone
      · exact .inl (hlooked.keepsQueue he)
    · exact .inr (he.mono hlooked.keepsSeen)
  refine ⟨hsettles h.start, fun name hname e hask => ?_⟩
  rcases hlooked.isNew name hname with hname | hasked
  · exact hsettles (h.met name hname e hask)
  · exact .inl (hasked e hask)

/-- Where looking through names goes on, the target is none of them. -/
theorem looked_of_further
    (h : Id.run (lookThrough ask target names seen queue) = .further seen' queue') :
    target ∉ names ∧ Looked ask names names seen queue seen' queue' := by
  rcases lookThrough_cases ask target (List.Subset.refl names) seen queue with
    ⟨-, hlook⟩ | ⟨htarget, met, left, hlook, hlooked⟩
  · cases hlook.symm.trans h
  · cases hlook.symm.trans h
    exact ⟨htarget, hlooked⟩

/-- A walk that does not find the target has been everywhere. -/
theorem not_reaches_of_ends {start : Element} (hends : Ends ask target queue seen false)
    (h : Walked ask target start queue seen) : ¬ Reaches ask target start := by
  generalize hanswer : false = answer at hends
  induction hends with
  | nowhere =>
    -- With nothing in the queue, every class that has been met is done.
    exact not_reaches_of_isDone
      (fun name hname e hask => (h.met name hname e hask).resolve_left List.not_mem_nil)
      (h.start.resolve_left List.not_mem_nil)
  | self _ => cases hanswer
  | base _ _ => cases hanswer
  | further hne hlook _ ih =>
    obtain ⟨htarget, hlooked⟩ := looked_of_further hlook
    exact ih (h.next hne htarget hlooked) hanswer

/-- A walk finds the target only where some class in the queue leads to it. -/
theorem exists_reaches_of_ends (hends : Ends ask target queue seen true) :
    ∃ e ∈ queue, Reaches ask target e := by
  generalize hanswer : true = answer at hends
  induction hends with
  | nowhere => cases hanswer
  | @self current _ _ h => exact ⟨current, List.mem_cons_self, .self h⟩
  | @base current queue seen _ hlook =>
    rcases lookThrough_cases ask target (List.Subset.refl current.supertypes) seen queue with
      ⟨hmem, -⟩ | ⟨-, _, _, hfurther, -⟩
    · exact ⟨current, List.mem_cons_self, .base hmem⟩
    · cases hlook.symm.trans hfurther
  | @further current _ _ _ _ _ _ hlook _ ih =>
    obtain ⟨e, he, hreaches⟩ := ih hanswer
    rcases (looked_of_further hlook).2.queued e he with he | ⟨name, hname, hask⟩
    · exact ⟨e, List.mem_cons_of_mem _ he, hreaches⟩
    · exact ⟨current, List.mem_cons_self, .up hname hask hreaches⟩

/-- **What a walk finds**: the target, just when a chain of supertypes leads there. -/
theorem Ends.eq_true_iff {answer : Bool} (h : Ends ask target [e] [] answer) :
    answer = true ↔ Reaches ask target e := by
  cases answer with
  | true =>
    obtain ⟨start, hmem, hreaches⟩ := exists_reaches_of_ends h
    exact iff_of_true rfl (List.mem_singleton.mp hmem ▸ hreaches)
  | false =>
    refine iff_of_false Bool.false_ne_true (not_reaches_of_ends h ⟨.inl List.mem_cons_self, ?_⟩)
    intro name hname
    cases hname

/-- A walk may take a step for each name of a supertype. -/
theorem ends_walkUp_singleton {steps : Nat} (hstart : e.supertypes ⊆ U)
    (hU : ∀ name e, ask name = some e → e.supertypes ⊆ U) (hsteps : U.length + 1 ≤ steps) :
    Ends ask target [e] [] (Id.run (walkUp ask target steps [e] [])) := by
  refine ends_walkUp hU (List.forall_mem_singleton.mpr hstart) ?_
  have hunmet : unmet U [] ≤ U.length := List.length_filter_le _ _
  rw [List.length_singleton]
  omega

/-- **A walk over the classes of sources** comes to an end. -/
theorem StaticModel.ends_inherits (model : StaticModel) (e contract : Element) :
    Ends model.element? contract.qualifiedName [e] [] (model.inherits e contract) := by
  refine ends_walkUp_singleton
    (U := e.supertypes ++ model.found.flatMap fun entry => entry.2.supertypes)
    (List.subset_append_left _ _) (fun name parent hparent => ?_) ?_
  · obtain ⟨key, hmem⟩ := exists_mem_of_lookUp hparent
    refine List.subset_append_of_subset_right _ fun other hother => ?_
    exact List.mem_flatMap.mpr ⟨(key, parent), hmem, hother⟩
  · rw [List.length_append]
    exact Nat.le_refl _

/-- **Which classes of sources inherit from a contract.** -/
theorem StaticModel.inherits_iff_reaches (model : StaticModel) (e contract : Element) :
    model.inherits e contract = true ↔ Reaches model.element? contract.qualifiedName e :=
  (model.ends_inherits e contract).eq_true_iff

end ProviderRegistry.Symbols
