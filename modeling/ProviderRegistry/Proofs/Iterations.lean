import ProviderRegistry.Proofs.Loading
import Mathlib.Logic.Function.Basic

/-!
# Iterations over a loader

A program may have any number of iterations over one loader under way, ask them for their
next objects in any order, ask for the first instance, and make the loader start anew. What
one iteration does when it is asked is one of the things that `Moves` lists; `InStep` is
what holds of a loader and its iterations whatever was asked, as long as the loader has not
started anew.
-/

namespace ProviderRegistry.World

variable {importer : Importer} {loader : ServiceLoader} {w w' : World} {c : Cursor}

/-! ## One iteration -/

/-- What an iteration does when it is asked for its next object. -/
inductive Moves (importer : Importer) (c : Cursor) (loader : ServiceLoader) (w : World) :
    Except Raised (Option Object) → Cursor → ServiceLoader → World → Prop
  | finished : c.isOver = true → Moves importer c loader w (.ok none) c loader w
  /-- The loader has the object already. -/
  | kept {o : Object} : c.isOver = false → loader.instances[c.position]? = some o →
      Moves importer c loader w (.ok (some o)) { c with position := c.position + 1 } loader w
  | raised {e : Raised} {loader' : ServiceLoader} {w' : World} : c.isOver = false →
      loader.instances.length ≤ c.position → Advances importer loader w (.error e) loader' w' →
      Moves importer c loader w (.error e) c.ended loader' w'
  | ended {loader' : ServiceLoader} {w' : World} : c.isOver = false →
      loader.instances.length ≤ c.position → Advances importer loader w (.ok false) loader' w' →
      Moves importer c loader w (.ok none) c.ended loader' w'
  | made {o : Object} {loader' : ServiceLoader} {w' : World} : c.isOver = false →
      c.position = loader.instances.length → Advances importer loader w (.ok true) loader' w' →
      loader'.instances = loader.instances ++ [o] →
      Moves importer c loader w (.ok (some o)) { c with position := c.position + 1 } loader' w'
  /-- One more instance does not reach to where the iteration stands. -/
  | misplaced {loader' : ServiceLoader} {w' : World} : c.isOver = false →
      loader.instances.length < c.position → Advances importer loader w (.ok true) loader' w' →
      Moves importer c loader w (.error Cursor.noInstance) c.ended loader' w'

/-- A step that makes an instance adds it to those before. -/
theorem Advances.instances_of_true {loader' : ServiceLoader}
    (h : Advances importer loader w (.ok true) loader' w') :
    ∃ o, loader'.instances = loader.instances ++ [o] := by
  cases h with
  | made _ _ _ => exact ⟨_, rfl⟩

namespace Cursor

theorem run_bind {α β : Type} (action : Stepping α) (next : α → Stepping β)
    (loader : ServiceLoader) (w : World) :
    (action >>= next) loader w =
      next (action loader w).1.1 (action loader w).1.2 (action loader w).2 := rfl

theorem run_get_bind {β : Type} (next : ServiceLoader → Stepping β) (loader : ServiceLoader)
    (w : World) : (get >>= next) loader w = next loader loader w := rfl

theorem next_of_isOver (h : c.isOver = true) :
    c.next importer loader w = (((.ok none, c), loader), w) := by
  rw [next, if_pos h]
  rfl

theorem next_of_lt (h : c.isOver = false) (hlt : c.position < loader.instances.length) :
    c.next importer loader w = c.give loader w := by
  rw [next, if_neg (by simp [h]), run_get_bind, if_pos hlt]

theorem next_of_ge (h : c.isOver = false) (hge : loader.instances.length ≤ c.position) :
    c.next importer loader w =
      match (Loading.advance importer).run loader w with
      | ((.error e, loader'), w') => (((.error e, c.ended), loader'), w')
      | ((.ok false, loader'), w') => (((.ok none, c.ended), loader'), w')
      | ((.ok true, loader'), w') => c.give loader' w' := by
  rw [next, if_neg (by simp [h]), run_get_bind, if_neg (by omega), run_bind]
  rcases (Loading.advance importer).run loader w with ⟨⟨r, loader'⟩, w'⟩
  rcases r with e | more
  · rfl
  · cases more <;> rfl

theorem give_of_some {o : Object} (h : loader.instances[c.position]? = some o) :
    c.give loader w = (((.ok (some o), { c with position := c.position + 1 }), loader), w) := by
  rw [give, run_get_bind, h]
  rfl

theorem give_of_ge (h : loader.instances.length ≤ c.position) :
    c.give loader w = (((.error noInstance, c.ended), loader), w) := by
  rw [give, run_get_bind, List.getElem?_eq_none h]
  rfl

/-- **What an iteration does** when it is asked is one of the things that `Moves` lists. -/
theorem moves (importer : Importer) (c : Cursor) (loader : ServiceLoader) (w : World) :
    ∃ result c' loader' w', Moves importer c loader w result c' loader' w' ∧
      c.next importer loader w = (((result, c'), loader'), w') := by
  cases hover : c.isOver with
  | true => exact ⟨_, _, _, _, .finished hover, next_of_isOver hover⟩
  | false =>
    rcases Nat.lt_or_ge c.position loader.instances.length with hlt | hge
    · have hsome := List.getElem?_eq_getElem hlt
      exact ⟨_, _, _, _, .kept hover hsome, (next_of_lt hover hlt).trans (give_of_some hsome)⟩
    · obtain ⟨result, loader', w', hstep⟩ := exists_advances importer loader w
      rw [next_of_ge hover hge, hstep.run_eq]
      cases result with
      | error e => exact ⟨_, _, _, _, .raised hover hge hstep, rfl⟩
      | ok more =>
        cases more with
        | false => exact ⟨_, _, _, _, .ended hover hge hstep, rfl⟩
        | true =>
          obtain ⟨o, ho⟩ := hstep.instances_of_true
          rcases Nat.eq_or_lt_of_le hge with heq | hlt
          · refine ⟨_, _, _, _, .made hover heq.symm hstep ho, give_of_some ?_⟩
            rw [ho, ← heq, List.getElem?_concat_length]
          · refine ⟨_, _, _, _, .misplaced hover hlt hstep, give_of_ge ?_⟩
            rw [ho, List.length_append, List.length_singleton]
            omega

end Cursor

/-- The objects that an answer holds: one or none. -/
def objectsIn (answer : Except Raised (Option Object)) : List Object := answer.toOption.join.toList

theorem Advances.instances_of_error {loader' : ServiceLoader} {e : Raised}
    (h : Advances importer loader w (.error e) loader' w') :
    loader'.instances = loader.instances := by
  cases h with
  | unreadable _ _ => rfl
  | lost _ _ => rfl
  | refused _ _ _ => rfl

theorem Advances.instances_of_false {loader' : ServiceLoader}
    (h : Advances importer loader w (.ok false) loader' w') :
    loader'.instances = loader.instances := by
  cases h with
  | exhausted _ => rfl

/-- A step that has no names left makes nothing. -/
theorem Advances.of_pending {loader' : ServiceLoader} {result : Except Raised Bool}
    (h : Advances importer loader w result loader' w') (hpending : loader.pending = some []) :
    result = .ok false ∧ loader'.pending = some [] ∧ loader'.instances = loader.instances := by
  have hnone {names : List String} {w₁ : World} (hfaces : Faces loader w names w₁) :
      names = [] := by
    cases hfaces with
    | left hnames => exact (Option.some.inj (hpending.symm.trans hnames)).symm
    | read h _ => simp [hpending] at h
  cases h with
  | unreadable h _ => simp [hpending] at h
  | exhausted _ => exact ⟨rfl, rfl, rfl⟩
  | lost hfaces _ => cases hnone hfaces
  | refused hfaces _ _ => cases hnone hfaces
  | made hfaces _ _ => cases hnone hfaces

namespace Moves

variable {answer : Except Raised (Option Object)} {c' : Cursor} {loader' : ServiceLoader}

/-- A loader keeps the instances that it has made. -/
theorem isPrefix (h : Moves importer c loader w answer c' loader' w') :
    loader.instances <+: loader'.instances := by
  cases h with
  | finished _ => exact List.prefix_rfl
  | kept _ _ => exact List.prefix_rfl
  | raised _ _ hstep => exact hstep.instances_of_error ▸ List.prefix_rfl
  | ended _ _ hstep => exact hstep.instances_of_false ▸ List.prefix_rfl
  | made _ _ _ hmade => exact ⟨_, hmade.symm⟩
  | misplaced _ _ hstep =>
    obtain ⟨o, ho⟩ := hstep.instances_of_true
    exact ⟨_, ho.symm⟩

/-! An iteration that does not stand beyond the instances of its loader gives them in order,
and goes on to where the loader has come when it makes the loader go on. -/

section

variable (h : Moves importer c loader w answer c' loader' w')
  (hle : c.position ≤ loader.instances.length)

include h hle

theorem position_le : c'.position ≤ loader'.instances.length := by
  have hlength := h.isPrefix.length_le
  cases h with
  | finished _ => exact hle
  | kept _ hsome => exact (List.getElem?_eq_some_iff.mp hsome).1
  | raised _ _ _ => exact Nat.le_trans hle hlength
  | ended _ _ _ => exact Nat.le_trans hle hlength
  | made _ heq _ hmade => simp [hmade, heq]
  | misplaced _ hlt _ => omega

theorem take_position : loader'.instances.take c'.position =
    loader.instances.take c.position ++ objectsIn answer := by
  cases h with
  | finished _ => simp [objectsIn, Except.toOption]
  | kept _ hsome => simp [List.take_add_one, hsome, objectsIn, Except.toOption]
  | raised _ _ hstep => simp [hstep.instances_of_error, Cursor.ended, objectsIn, Except.toOption]
  | ended _ _ hstep => simp [hstep.instances_of_false, Cursor.ended, objectsIn, Except.toOption]
  | made _ heq _ hmade =>
    rw [hmade, heq, List.take_of_length_le (by simp)]
    simp [objectsIn, Except.toOption]
  | misplaced _ hlt _ => omega

theorem length_instances :
    loader'.instances.length = max loader.instances.length c'.position := by
  have hposition := h.position_le hle
  cases h with
  | finished _ => omega
  | kept _ _ => omega
  | raised _ _ hstep => rw [hstep.instances_of_error] at hposition ⊢; omega
  | ended _ _ hstep => rw [hstep.instances_of_false] at hposition ⊢; omega
  | made _ heq _ hmade => simp [hmade, heq]
  | misplaced _ hlt _ => omega

theorem progress {fresh : ServiceLoader} {w₀ : World} {raised : List Raised}
    (hprogress : Progress importer fresh w₀ raised loader w) :
    Progress importer fresh w₀ (raised ++ (exception? answer).toList) loader' w' := by
  cases h with
  | finished _ => simpa [exception?] using hprogress
  | kept _ _ => simpa [exception?] using hprogress
  | raised _ _ hstep => exact hprogress.advance hstep
  | ended _ _ hstep => exact hprogress.advance hstep
  | made _ _ hstep _ => exact hprogress.advance hstep
  | misplaced _ hlt _ => omega

/-- An iteration that ends without an exception has come to the last instance, and no names
are left. -/
theorem pending_of_isOver (hopen : c.isOver = false) (hover : c'.isOver = true)
    (hanswer : exception? answer = none) :
    loader'.pending = some [] ∧ c'.position = loader'.instances.length := by
  cases h with
  | finished h => simp [h] at hopen
  | kept h _ => simp [h] at hover
  | raised _ _ _ => simp [exception?] at hanswer
  | ended _ hge hstep =>
    cases hstep with
    | exhausted _ => exact ⟨rfl, Nat.le_antisymm hle hge⟩
  | made h _ _ _ => simp [h] at hover
  | misplaced _ hlt _ => omega

end

/-- When no names are left nothing more is made. -/
theorem exhausted (h : Moves importer c loader w answer c' loader' w')
    (hpending : loader.pending = some []) :
    loader'.pending = some [] ∧ loader'.instances = loader.instances := by
  cases h with
  | finished _ => exact ⟨hpending, rfl⟩
  | kept _ _ => exact ⟨hpending, rfl⟩
  | raised _ _ hstep => cases (hstep.of_pending hpending).1
  | ended _ _ hstep => exact (hstep.of_pending hpending).2
  | made _ _ hstep _ => cases (hstep.of_pending hpending).1
  | misplaced _ _ hstep => cases (hstep.of_pending hpending).1

end Moves

/-! ## Any number of iterations -/

/-- What a program asks of a loader and of the iterations over it, which are known by
numbers. -/
inductive Request where
  /-- To begin an iteration, in the place of one with the same number. -/
  | begin (i : Nat)
  /-- The next object of an iteration. -/
  | next (i : Nat)
  /-- The first instance. -/
  | first
  /-- That the loader start anew. -/
  | reload
  deriving DecidableEq, Repr

/-- A loader in use, and what has come of it so far. -/
structure Usage where
  loader : ServiceLoader
  world : World
  cursors : Nat → Cursor := fun _ => {}
  /-- What each iteration has given, in order. -/
  given : Nat → List Object := fun _ => []
  /-- What requests for the first instance have given. -/
  firsts : List Object := []
  /-- The furthest place that an iteration has come to. -/
  furthest : Nat := 0
  /-- The exceptions raised. -/
  raised : List Raised := []
  /-- Whether the loader has not started anew since an iteration began. -/
  isCurrent : Nat → Bool := fun _ => true

namespace Usage

/-- What comes of one request. -/
def ask (importer : Importer) (u : Usage) : Request → Usage
  | .begin i => { u with
      cursors := Function.update u.cursors i {}
      given := Function.update u.given i []
      isCurrent := Function.update u.isCurrent i true }
  | .next i =>
    let (((answer, c), loader), world) := (u.cursors i).next importer u.loader u.world
    { u with
      loader, world
      cursors := Function.update u.cursors i c
      given := Function.update u.given i (u.given i ++ objectsIn answer)
      furthest := max u.furthest c.position
      raised := u.raised ++ (exception? answer).toList }
  | .first =>
    let ((answer, loader), world) := (Loading.first importer).run u.loader u.world
    { u with
      loader, world
      firsts := u.firsts ++ objectsIn answer
      furthest := max u.furthest (objectsIn answer).length
      raised := u.raised ++ (exception? answer).toList }
  | .reload =>
    let ((_, loader), world) := Loading.reload.run u.loader u.world
    { u with loader, world, isCurrent := fun _ => false }

/-- A loader that has read nothing yet, before any request. -/
def fresh (loader : ServiceLoader) (world : World) : Usage where
  loader := loader.unread
  world

/-- What comes of requests, one after another. -/
def after (importer : Importer) (loader : ServiceLoader) (w : World) (requests : List Request) :
    Usage :=
  requests.foldl (ask importer) (fresh loader w)

/-- What the next object of an iteration would be. -/
def answer (importer : Importer) (u : Usage) (i : Nat) : Except Raised (Option Object) :=
  ((u.cursors i).next importer u.loader u.world).1.1.1

end Usage

/-! ## Iterations in step -/

/-- An iteration that is in step with its loader: what it has given is what the loader has
made, as far as it has come. If it is over and no exception was raised, it has come to the
end. -/
structure Follows (loader : ServiceLoader) (raised : List Raised) (c : Cursor)
    (given : List Object) : Prop where
  position_le : c.position ≤ loader.instances.length
  given_eq : given = loader.instances.take c.position
  complete : c.isOver = true → raised = [] →
    loader.pending = some [] ∧ c.position = loader.instances.length

namespace Follows

variable {raised : List Raised} {given : List Object} {answer : Except Raised (Option Object)}
  {c' : Cursor} {loader' : ServiceLoader}

theorem begin (loader : ServiceLoader) (raised : List Raised) : Follows loader raised {} [] where
  position_le := Nat.zero_le _
  given_eq := rfl
  complete := nofun

/-- An iteration stays in step when it is asked, -/
theorem move (h : Follows loader raised c given)
    (hmove : Moves importer c loader w answer c' loader' w') :
    Follows loader' (raised ++ (exception? answer).toList) c' (given ++ objectsIn answer) where
  position_le := hmove.position_le h.position_le
  given_eq := by rw [hmove.take_position h.position_le, h.given_eq]
  complete hover hnone := by
    obtain ⟨hraised, hanswer⟩ := List.append_eq_nil_iff.mp hnone
    cases hopen : c.isOver with
    | false =>
      exact hmove.pending_of_isOver h.position_le hopen hover (Option.toList_eq_nil_iff.mp hanswer)
    | true =>
      cases hmove with
      | finished _ => exact h.complete hopen hraised
      | _ => simp_all

/-- and when another one is asked. -/
theorem stay {d d' : Cursor} (h : Follows loader raised c given)
    (hmove : Moves importer d loader w answer d' loader' w') :
    Follows loader' (raised ++ (exception? answer).toList) c given where
  position_le := Nat.le_trans h.position_le hmove.isPrefix.length_le
  given_eq := by
    obtain ⟨more, hmore⟩ := hmove.isPrefix
    rw [h.given_eq, ← hmore, List.take_append_of_le_length h.position_le]
  complete hover hnone := by
    obtain ⟨hpending, heq⟩ := h.complete hover (List.append_eq_nil_iff.mp hnone).1
    obtain ⟨hpending', hinstances⟩ := hmove.exhausted hpending
    exact ⟨hpending', by rw [hinstances, heq]⟩

end Follows

/-- A loader that had read nothing in a world, and the iterations over it since then: all
are in step, and one has come as far as the loader. -/
structure InStep (importer : Importer) (loader : ServiceLoader) (w : World) (u : Usage) : Prop where
  progress : Progress importer loader w u.raised u.loader u.world
  follows : ∀ i, Follows u.loader u.raised (u.cursors i) (u.given i)
  firsts : ∀ o ∈ u.firsts, u.loader.instances.head? = some o
  furthest : u.furthest = u.loader.instances.length

namespace Usage

theorem ask_next {u : Usage} {i : Nat} {answer : Except Raised (Option Object)} {c' : Cursor}
    {loader' : ServiceLoader}
    (h : (u.cursors i).next importer u.loader u.world = (((answer, c'), loader'), w')) :
    u.ask importer (.next i) = { u with
      loader := loader'
      world := w'
      cursors := Function.update u.cursors i c'
      given := Function.update u.given i (u.given i ++ objectsIn answer)
      furthest := max u.furthest c'.position
      raised := u.raised ++ (exception? answer).toList } := by
  simp only [ask, h]

theorem ask_first {u : Usage} {answer : Except Raised (Option Object)} {c' : Cursor}
    {loader' : ServiceLoader}
    (h : Cursor.next importer {} u.loader u.world = (((answer, c'), loader'), w')) :
    u.ask importer .first = { u with
      loader := loader'
      world := w'
      firsts := u.firsts ++ objectsIn answer
      furthest := max u.furthest (objectsIn answer).length
      raised := u.raised ++ (exception? answer).toList } := by
  have hfirst : (Loading.first importer).run u.loader u.world = ((answer, loader'), w') := by
    change (match Cursor.next importer {} u.loader u.world with
      | (((answer, _), loader'), w') => ((answer, loader'), w')) = _
    rw [h]
  simp only [ask, hfirst]

end Usage

theorem head?_of_isPrefix {α : Type} {l l' : List α} {a : α} (h : l <+: l')
    (ha : l.head? = some a) : l'.head? = some a := by
  obtain ⟨more, rfl⟩ := h
  rw [List.head?_append, ha, Option.some_or]

/-- **One request leaves a loader and its iterations in step**, unless the loader is told to
start anew. -/
theorem InStep.ask {u : Usage} (h : InStep importer loader w u) {request : Request}
    (hrequest : request ≠ .reload) : InStep importer loader w (u.ask importer request) := by
  cases request with
  | begin i =>
    refine ⟨h.progress, fun j => ?_, h.firsts, h.furthest⟩
    by_cases hj : j = i
    · subst hj
      simpa [Usage.ask] using Follows.begin u.loader u.raised
    · simpa [Usage.ask, hj] using h.follows j
  | next i =>
    obtain ⟨answer, c', loader', w', hmove, hrun⟩ :=
      Cursor.moves importer (u.cursors i) u.loader u.world
    have hle := (h.follows i).position_le
    rw [Usage.ask_next hrun]
    refine ⟨hmove.progress hle h.progress, fun j => ?_, fun o ho => ?_, ?_⟩
    · by_cases hj : j = i
      · subst hj
        simpa using (h.follows j).move hmove
      · simpa [hj] using (h.follows j).stay hmove
    · exact head?_of_isPrefix hmove.isPrefix (h.firsts o ho)
    · simpa [h.furthest] using (hmove.length_instances hle).symm
  | first =>
    obtain ⟨answer, c', loader', w', hmove, hrun⟩ := Cursor.moves importer {} u.loader u.world
    have hfirst := (Follows.begin u.loader u.raised).move hmove
    have hgiven : objectsIn answer = loader'.instances.take c'.position := hfirst.given_eq
    rw [Usage.ask_first hrun]
    refine ⟨hmove.progress (Nat.zero_le _) h.progress, fun j => (h.follows j).stay hmove,
      fun o ho => ?_, ?_⟩
    · rcases List.mem_append.mp ho with ho | ho
      · exact head?_of_isPrefix hmove.isPrefix (h.firsts o ho)
      · have hone : objectsIn answer = [o] := by
          rw [objectsIn, Option.mem_toList.mp ho]
          rfl
        exact head?_of_isPrefix (List.take_prefix c'.position _) (by rw [← hgiven, hone]; rfl)
    · have hlength : (objectsIn answer).length = c'.position := by
        rw [hgiven, List.length_take, Nat.min_eq_left hfirst.position_le]
      simpa [h.furthest, hlength] using (hmove.length_instances (Nat.zero_le _)).symm
  | reload => exact absurd rfl hrequest

theorem InStep.asks {u : Usage} (h : InStep importer loader w u) {requests : List Request}
    (hrequests : .reload ∉ requests) :
    InStep importer loader w (requests.foldl (Usage.ask importer) u) := by
  induction requests generalizing u with
  | nil => exact h
  | cons request rest ih =>
    obtain ⟨hrequest, hrest⟩ := List.ne_and_not_mem_of_not_mem_cons hrequests
    exact ih (h.ask hrequest.symm) hrest

/-- **Requests leave a loader and its iterations in step**, as long as none tells the loader
to start anew. -/
theorem inStep_after (importer : Importer) (loader : ServiceLoader) (w : World)
    {requests : List Request} (h : .reload ∉ requests) :
    InStep importer loader w (Usage.after importer loader w requests) :=
  InStep.asks ⟨.unread, fun _ => .begin _ _, List.forall_mem_nil _, rfl⟩ h

end ProviderRegistry.World
