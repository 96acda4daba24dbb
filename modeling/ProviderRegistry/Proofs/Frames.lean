import Mathlib.Order.Defs.Unbundled
import ProviderRegistry.World.Import

/-!
# What computations do to a state

A computation that works on a state may raise and may change the state, but every state that it
leaves stands in some relation to the one before (`Moves`): most often a part of the state stays
as it is (`Leaves`). The property is closed under everything that computations are built from, so
that it is read off their definitions. A run of imported modules does nothing to a world but to
set its modules, count its instances and add classes (`Run.Admits`).
-/

namespace ProviderRegistry

/-- A computation that takes every state to one that stands in a relation to it, whether it raises
or not. -/
def Moves {ε σ α : Type} (R : σ → σ → Prop) (action : ExceptT ε (StateM σ) α) : Prop :=
  ∀ s, R s (action.run s).2

/-- A computation that leaves a part of the state as it is. -/
abbrev Leaves {ε σ φ α : Type} (part : σ → φ) (action : ExceptT ε (StateM σ) α) : Prop :=
  Moves (fun s s' => part s' = part s) action

instance Leaves.isPreorder {σ φ : Type} (part : σ → φ) :
    IsPreorder σ (fun s s' => part s' = part s) where
  refl _ := rfl
  trans _ _ _ h h' := h'.trans h

namespace Leaves

variable {ε σ α β : Type}

theorem run_bind (action : ExceptT ε (StateM σ) α) (next : α → ExceptT ε (StateM σ) β) (s : σ) :
    (action >>= next).run s =
      match action.run s with
      | (.ok a, s') => (next a).run s'
      | (.error e, s') => (.error e, s') := by
  change (match action.run s with | (a, s') => ExceptT.bindCont next a s') = _
  rcases action.run s with ⟨r, s'⟩
  cases r <;> rfl

/-- What comes after an action has given the result, from the state that the action has left. -/
theorem run_bind_eq_ok_iff {action : ExceptT ε (StateM σ) α} {next : α → ExceptT ε (StateM σ) β}
    {s s' : σ} {b : β} :
    (action >>= next).run s = (.ok b, s') ↔
      ∃ a middle, action.run s = (.ok a, middle) ∧ (next a).run middle = (.ok b, s') := by
  rw [run_bind]
  constructor
  · intro h
    split at h
    next a middle hrun => exact ⟨a, middle, hrun, h⟩
    next => cases h
  · rintro ⟨a, middle, hrun, h⟩
    rwa [hrun]

theorem run_bind_throw_ne_ok {action : ExceptT ε (StateM σ) α} {raised : α → ε} {s s' : σ} {b : β} :
    (action >>= fun a => throw (raised a)).run s ≠ (.ok b, s') := by
  intro h
  obtain ⟨a, middle, -, hthrow⟩ := run_bind_eq_ok_iff.mp h
  cases hthrow

theorem run_get_bind (next : σ → ExceptT ε (StateM σ) β) (s : σ) :
    (get >>= next).run s = (next s).run s := rfl

end Leaves

namespace Moves

variable {ε σ α β : Type} {R : σ → σ → Prop}

theorem of_modify {f : σ → σ} (h : ∀ s, R s (f s)) :
    Moves R (modify f : ExceptT ε (StateM σ) PUnit) := h

theorem ite {p : Prop} [Decidable p] {action other : ExceptT ε (StateM σ) α}
    (h : Moves R action) (h' : Moves R other) : Moves R (if p then action else other) := by
  split
  · exact h
  · exact h'

variable [IsPreorder σ R]

theorem of_pure (a : α) : Moves R (pure a : ExceptT ε (StateM σ) α) := fun _ => refl_of R _

theorem of_throw (e : ε) : Moves R (throw e : ExceptT ε (StateM σ) α) := fun _ => refl_of R _

theorem of_get : Moves R (get : ExceptT ε (StateM σ) σ) := fun _ => refl_of R _

theorem bind {action : ExceptT ε (StateM σ) α} {next : α → ExceptT ε (StateM σ) β}
    (h : Moves R action) (hnext : ∀ a, Moves R (next a)) : Moves R (action >>= next) := by
  intro s
  have hs := h s
  -- What comes after the action runs only if that has not raised.
  rw [Leaves.run_bind]
  cases hr : action.run s with
  | mk r s' =>
    rw [hr] at hs
    cases r with
    | error e => exact hs
    | ok a => exact trans_of R hs (hnext a s')

theorem map {action : ExceptT ε (StateM σ) α} (f : α → β) (h : Moves R action) :
    Moves R (f <$> action) := by
  rw [map_eq_pure_bind]
  exact h.bind fun a => of_pure (f a)

theorem foldlM {f : β → α → ExceptT ε (StateM σ) β} (h : ∀ b a, Moves R (f b a))
    (items : List α) (b : β) : Moves R (items.foldlM f b) := by
  induction items generalizing b with
  | nil => exact of_pure b
  | cons a rest ih =>
    rw [List.foldlM_cons]
    exact (h b a).bind fun b => ih b

theorem mapM {f : α → ExceptT ε (StateM σ) β} (h : ∀ a, Moves R (f a)) (items : List α) :
    Moves R (items.mapM f) := by
  induction items with
  | nil =>
    rw [List.mapM_nil]
    exact of_pure []
  | cons a rest ih =>
    rw [List.mapM_cons]
    exact (h a).bind fun b => ih.bind fun bs => of_pure (b :: bs)

theorem forM {f : α → ExceptT ε (StateM σ) PUnit} (h : ∀ a, Moves R (f a)) (items : List α) :
    Moves R (items.forM f) := by
  induction items with
  | nil => exact of_pure PUnit.unit
  | cons a rest ih => exact (h a).bind fun _ => ih

theorem option_mapM {f : α → ExceptT ε (StateM σ) β} (h : ∀ a, Moves R (f a))
    (item : Option α) : Moves R (item.mapM f) := by
  cases item with
  | none => exact of_pure none
  | some a => exact (h a).map some

end Moves

/-! ## Runs -/

namespace World.Run

/-- A relation in which a world stands to those that runs make of it. -/
class Admits (R : World → World → Prop) : Prop extends IsPreorder World R where
  modules : ∀ w modules, R w { w with modules }
  made : ∀ w made, R w { w with made }
  classes : ∀ w c, R w { w with classes := w.classes.push c }

section

variable {α : Type} {R : World → World → Prop}

theorem moves_addClass [Admits R] (c : LiveClass) : Moves R (addClass c) :=
  fun w => Admits.classes w c

theorem moves_newInstance [Admits R] (id : ClassId) : Moves R (newInstance id) :=
  fun w => Admits.made w _

variable [IsPreorder World R]

theorem moves_raise (kind message : String) : Moves R (raise kind message : Run α) :=
  Moves.of_throw _

theorem moves_ofFile (result : Except FileError α) : Moves R (ofFile result) := by
  cases result with
  | ok a => exact Moves.of_pure a
  | error e => exact Moves.of_throw _

theorem moves_world : Moves R world := Moves.of_get

end

/-- An outcome is a value, whatever it says. -/
theorem run_outcome {α : Type} (action : Run α) (w : World) :
    action.outcome.run w = (.ok (action.run w).1, (action.run w).2) := by
  unfold outcome
  simp only [tryCatch, tryCatchThe, MonadExceptOf.tryCatch, ExceptT.tryCatch, ExceptT.run,
    ExceptT.mk, bind, StateT.bind, Functor.map, ExceptT.map]
  rcases action w with ⟨r, w'⟩
  cases r <;> rfl

end World.Run

theorem Moves.outcome {α : Type} {R : World → World → Prop} {action : World.Run α}
    (h : Moves R action) : Moves R action.outcome := by
  intro w
  rw [World.Run.run_outcome]
  exact h w

namespace World

open Run

/-! ## Exceptions -/

/-- A computation whose exceptions all have a property. -/
def Run.RaisesOnly {α : Type} (p : Raised → Prop) (action : Run α) : Prop :=
  ∀ ⦃w : World⦄ ⦃e : Raised⦄ ⦃w' : World⦄, action.run w = (.error e, w') → p e

namespace Run.RaisesOnly

variable {α β : Type} {p : Raised → Prop}

theorem of_pure (a : α) : RaisesOnly p (pure a) := nofun

theorem of_throw {e : Raised} (h : p e) : RaisesOnly p (throw e : Run α) := by
  rintro w _ _ ⟨⟩
  exact h

theorem of_world : RaisesOnly p Run.world := nofun

/-- What comes after a computation need only be looked at for the values that it gives. -/
theorem bind_of_gives {action : Run α} {next : α → Run β} (h : RaisesOnly p action)
    (hnext : ∀ a w w', action.run w = (.ok a, w') → RaisesOnly p (next a)) :
    RaisesOnly p (action >>= next) := by
  intro w e w' hraised
  rw [Leaves.run_bind] at hraised
  split at hraised
  · next a w₁ hgives => exact hnext a w w₁ hgives hraised
  · next e' w₁ hfails =>
    cases hraised
    exact h hfails

theorem bind {action : Run α} {next : α → Run β} (h : RaisesOnly p action)
    (hnext : ∀ a, RaisesOnly p (next a)) : RaisesOnly p (action >>= next) :=
  h.bind_of_gives fun a _ _ _ => hnext a

theorem foldlM {f : β → α → Run β} (h : ∀ b a, RaisesOnly p (f b a)) (items : List α) (b : β) :
    RaisesOnly p (items.foldlM f b) := by
  induction items generalizing b with
  | nil => exact of_pure b
  | cons a rest ih =>
    rw [List.foldlM_cons]
    exact (h b a).bind fun b => ih b

/-- A computation is told apart by its outcome, which never raises. -/
theorem bind_outcome {action : Run α} {next : Except Raised α → Run β}
    (hok : ∀ a, RaisesOnly p (next (.ok a)))
    (herror : ∀ w e w', action.run w = (.error e, w') → RaisesOnly p (next (.error e))) :
    RaisesOnly p (action.outcome >>= next) := by
  have hnever : RaisesOnly p action.outcome := by
    intro w e w' h
    rw [run_outcome] at h
    cases h
  refine hnever.bind_of_gives fun r w w' h => ?_
  rw [run_outcome] at h
  cases r with
  | ok a => exact hok a
  | error e =>
    have hfails : (action.run w).1 = .error e := Except.ok.inj (congrArg Prod.fst h)
    exact herror w e (action.run w).2 (Prod.ext hfails rfl)

end Run.RaisesOnly

/-! ## Attributes and references -/

section

variable {R : World → World → Prop} [IsPreorder World R]

theorem moves_getAttribute (o : Object) (name : String) :
    Moves R (getAttribute o name) := by
  refine moves_world.bind fun w => ?_
  split
  · exact .of_pure _
  · exact moves_raise _ _

theorem moves_getAttributes (o : Object) (names : List String) :
    Moves R (getAttributes o names) :=
  .foldlM moves_getAttribute names o

theorem moves_textAttribute (o : Object) (name : String) :
    Moves R (textAttribute o name) := by
  refine (moves_getAttribute o name).bind fun value => ?_
  split
  · exact .of_pure _
  · exact moves_raise _ _

theorem moves_qualifiedNameOf (o : Object) : Moves R (qualifiedNameOf o) := by
  refine (moves_textAttribute o _).bind fun module => ?_
  exact (moves_textAttribute o _).bind fun name => .of_pure _

end

/-- An importer that takes every world to one that stands in a relation to it. -/
def Importer.Moves (R : World → World → Prop) (importer : Importer) : Prop :=
  ∀ name, ProviderRegistry.Moves R (importer name)

section

variable {R : World → World → Prop} [Run.Admits R] {importer : Importer} (h : importer.Moves R)

include h

theorem moves_resolve (frame : Frame) (r : Ref) :
    Moves R (resolve importer frame r) := by
  cases r with
  | qualified module attributes =>
    exact (h module).bind fun _ => moves_getAttributes _ attributes
  | named name attributes =>
    refine moves_world.bind fun w => ?_
    split
    · exact moves_getAttributes _ attributes
    · exact moves_raise _ _

theorem moves_resolveFrom (module : String) (parts : List String) :
    Moves R (resolveFrom importer module parts) := by
  induction parts generalizing module with
  | nil => exact .of_pure _
  | cons part rest ih =>
    refine (h _).outcome.bind fun r => ?_
    split
    · exact ih _
    · exact .ite (moves_getAttributes _ _) (.of_throw _)

theorem moves_resolveName (name : String) : Moves R (resolveName importer name) := by
  unfold resolveName
  simp only
  split
  · split
    · exact (h _).bind fun _ => moves_resolveFrom h _ _
    · exact moves_raise _ _
  · exact .ite ((h _).bind fun _ => moves_getAttributes _ _) (moves_raise _ _)
  · exact moves_raise _ _

end

/-! ## Making classes -/

section

variable {R : World → World → Prop} [IsPreorder World R]

theorem moves_obey {α : Type} (result : Except String α) : Moves R (obey result) := by
  cases result with
  | ok a => exact .of_pure a
  | error text => exact moves_raise _ _

theorem moves_basesOf (objects : List Object) : Moves R (basesOf objects) :=
  .ite (.of_pure _) (moves_raise _ _)

theorem moves_setInBody (isEnumeration : Bool) (name : String) (value : Attribute)
    (body : Table String Attribute) : Moves R (setInBody isEnumeration name value body) := by
  refine .ite (.of_pure _) (.ite (moves_raise _ _) ?_)
  split
  · exact .of_pure _
  · exact .ite (moves_world.bind fun _ => moves_raise _ _) (.of_pure _)

theorem moves_endBody (isEnumeration : Bool) (c : ClassDescription)
    (body : Table String Attribute) : Moves R (endBody isEnumeration c body) := by
  unfold endBody
  split
  · exact .of_pure _
  · exact moves_setInBody _ _ _ _

end

section

variable {R : World → World → Prop} [Run.Admits R]

theorem moves_makeMember (id : ClassId) (isNumber : Bool)
    (constructor : Option (String × Construction)) (o : Object) :
    Moves R (makeMember id isNumber constructor o) := by
  have hnew : Moves R (newInstance id) := moves_newInstance id
  have hraised {made : Run Object} (kind message : String) (h : Moves R made) :
      Moves R (Run.raise kind message >>= fun _ : PUnit => made) :=
    (moves_raise kind message).bind fun _ => h
  unfold makeMember
  rcases constructor with _ | ⟨qualname, _ | kind⟩
  · simp only
    split
    · exact .ite (moves_world.bind fun w => hraised _ _ hnew) hnew
    · exact hnew
  · simp only
    split
    · exact .ite (moves_world.bind fun w => hraised _ _ hnew) hnew
    · exact hnew
  · simp only
    have hmade := hraised "TypeError"
      (qualname ++ ".__init__() takes 1 positional argument but 2 were given") hnew
    split
    · exact .ite (moves_world.bind fun w => hraised _ _ hmade) hmade
    · exact hmade

theorem moves_makeMembers (id : ClassId) (isNumber : Bool)
    (constructor : Option (String × Construction)) (body : Table String Attribute)
    (known : Table Object Object) :
    Moves R (makeMembers id isNumber constructor body known) := by
  induction body generalizing known with
  | nil => exact .of_pure _
  | cons entry rest ih =>
    unfold makeMembers
    split
    · split
      · exact (ih known).bind fun _ => .of_pure _
      · refine (moves_makeMember id isNumber constructor _).bind fun made => ?_
        exact (ih _).bind fun _ => .of_pure _
    · exact (ih known).bind fun _ => .of_pure _

theorem moves_finishClass (module qualname : String) (c : ClassDescription)
    (marker : Option Marker) (bases : List ClassId) (metaclass : Metaclass)
    (body : Table String Attribute) :
    Moves R (finishClass module qualname c marker bases metaclass body) := by
  refine moves_world.bind fun w => ?_
  extract_lets classes isEnumeration id isProtocol refusesInstances make
  have hmake : ∀ r, Moves R (make r) := by
    refine fun _ => (moves_obey _).bind fun layout => (moves_obey _).bind fun above => ?_
    extract_lets isBelow hasMembers abstractMembers add
    have hadd : ∀ attributes, Moves R (add attributes) := by
      intro attributes
      unfold add
      extract_lets addChecked
      have hadd : ∀ r, Moves R (addChecked r) := by
        refine fun _ => (moves_addClass _).bind fun id => ?_
        extract_lets finish
        exact .ite (moves_world.bind fun _ => (moves_raise _ _).bind fun _ => .of_pure _)
          (.of_pure _)
      exact .ite ((moves_obey _).bind hadd) (hadd ())
    exact .ite ((moves_makeMembers _ _ _ _ _).bind hadd) ((Moves.of_pure _).bind hadd)
  exact .ite ((moves_raise _ _).bind hmake) (hmake ())

end

section

variable {R : World → World → Prop} [Run.Admits R] {importer : Importer} (h : importer.Moves R)

include h

theorem moves_startBody (module : String) (isEnumeration : Bool) (c : ClassDescription) :
    Moves R (startBody importer module isEnumeration c) := by
  refine Moves.bind (.foldlM (fun _ _ => moves_setInBody _ _ _ _) _ _) fun body => ?_
  refine Moves.bind (.foldlM (fun _ _ => moves_setInBody _ _ _ _) _ _) fun body => ?_
  refine Moves.bind (.foldlM (fun body a => ?_) _ _) fun body => ?_
  · exact (moves_resolve h _ _).bind fun _ => moves_setInBody _ _ _ _
  · exact .foldlM (fun _ _ => moves_setInBody _ _ _ _) _ _

theorem moves_markerOf (frame : Frame) (call : MarkerCall) :
    Moves R (markerOf importer frame call) := by
  unfold markerOf
  extract_lets finish
  split
  · exact .of_pure _
  · exact .of_pure _
  · exact (moves_resolve h frame _).bind fun _ => .of_pure _

theorem moves_startClass (frame : Frame) (c : ClassDescription) :
    Moves R (startClass importer frame c) := by
  refine Moves.bind (.option_mapM (moves_markerOf h frame) _) fun marker => ?_
  refine Moves.bind (.mapM (moves_resolve h frame) _) fun objects => ?_
  refine (moves_basesOf objects).bind fun bases => moves_world.bind fun w => ?_
  extract_lets classes bases
  split
  · exact moves_raise _ _
  · exact .ite ((moves_obey _).bind fun _ => .of_pure _) (.of_pure _)

end

mutual

theorem moves_makeClass {R : World → World → Prop} [Run.Admits R]
    {importer : Importer} (h : importer.Moves R) (frame : Frame)
    (outer : String) : (c : ClassDescription) → Moves R (makeClass importer frame outer c)
  | ⟨_, _, _, _, _, _, nested, _, _, _, _, _⟩ => by
    rw [makeClass]
    refine (moves_startClass h frame _).bind fun _ => ?_
    refine (moves_startBody h _ _ _).bind fun body => ?_
    refine (moves_makeNested h _ _ _ body nested).bind fun body => ?_
    exact (moves_endBody _ _ body).bind fun body => moves_finishClass _ _ _ _ _ _ body

theorem moves_makeNested {R : World → World → Prop} [Run.Admits R]
    {importer : Importer} (h : importer.Moves R)
    (module outer : String) (isEnumeration : Bool) (body : Table String Attribute) :
    (nested : List ClassDescription) →
      Moves R (makeNested importer module outer isEnumeration body nested)
  | [] => by
    rw [makeNested]
    exact .of_pure body
  | c :: rest => by
    rw [makeNested]
    refine (moves_makeClass h ⟨module, body⟩ outer c).bind fun id => ?_
    refine (moves_setInBody _ _ _ body).bind fun body => ?_
    exact moves_makeNested h module outer isEnumeration body rest

end

/-! ## Loaders -/

theorem moves_instantiate {R : World → World → Prop} [Run.Admits R] (id : ClassId) :
    Moves R (instantiate id) := by
  refine moves_world.bind fun w => ?_
  extract_lets classes
  split
  · exact moves_raise _ _
  · refine .ite (moves_raise _ _) (.ite (moves_raise _ _) ?_)
    split
    · split
      all_goals exact moves_raise _ _
    · refine .ite (moves_raise _ _) ?_
      split
      · exact .of_pure _
      · exact moves_newInstance _

namespace ServiceLoader

section

variable {R : World → World → Prop} [IsPreorder World R]

theorem moves_fault (loader : ServiceLoader) (text : String) :
    Moves R (loader.fault text) :=
  (moves_qualifiedNameOf _).bind fun _ => .of_pure _

theorem moves_namesIn (loader : ServiceLoader) (names : List String) (path : Path) :
    Moves R (loader.namesIn names path) := by
  refine moves_world.bind fun w => ?_
  split
  · exact (loader.moves_fault _).bind fun _ => .of_throw _
  · split
    · exact .of_throw _
    · exact .of_pure _

/-- Reading registry files changes nothing. -/
theorem moves_providerNames (loader : ServiceLoader) : Moves R loader.providerNames := by
  refine (moves_qualifiedNameOf _).bind fun name => ?_
  refine Moves.bind (moves_world.bind fun w => moves_ofFile _) fun paths => ?_
  exact .foldlM loader.moves_namesIn _ _

theorem moves_isProvider (loader : ServiceLoader) (o : Object) :
    Moves R (loader.isProvider o) := by
  unfold isProvider
  split
  · exact moves_world.bind fun _ => .of_pure _
  · exact .of_pure _

end

section

variable {R : World → World → Prop} [Run.Admits R]

theorem moves_providerClass {importer : Importer} (h : importer.Moves R) (loader : ServiceLoader)
    (name : String) : Moves R (loader.providerClass importer name) := by
  refine (moves_resolveName h name).outcome.bind fun r => ?_
  split
  · exact .ite ((loader.moves_fault _).bind fun _ => .of_throw _) (.of_throw _)
  · refine (loader.moves_isProvider _).bind fun _ => .ite (.of_pure _) ?_
    exact (loader.moves_fault _).bind fun _ => .of_throw _

theorem moves_makeInstance (loader : ServiceLoader) (provider : Object) :
    Moves R (loader.makeInstance provider) := by
  unfold makeInstance
  split
  · refine (moves_instantiate _).outcome.bind fun r => ?_
    split
    · exact .of_pure _
    · refine .ite ((moves_qualifiedNameOf _).bind fun name => ?_) (.of_throw _)
      exact (loader.moves_fault _).bind fun _ => .of_throw _
  · exact moves_raise _ _

end

end ServiceLoader

/-! ## Iterations -/

/-- A computation of an iteration that takes every world to one that stands in a relation to
it. -/
def Cursor.Steps {α : Type} (R : World → World → Prop) (action : Cursor.Stepping α) : Prop :=
  ∀ loader w, R w (action loader w).2

namespace Cursor.Steps

variable {α β : Type} {R : World → World → Prop} [IsPreorder World R]

theorem of_pure (a : α) : Steps R (pure a) := fun _ _ => refl_of R _

theorem of_get : Steps R get := fun _ _ => refl_of R _

theorem bind {action : Cursor.Stepping α} {next : α → Cursor.Stepping β} (h : Steps R action)
    (hnext : ∀ a, Steps R (next a)) : Steps R (action >>= next) := by
  intro loader w
  have hw := h loader w
  change R w (match action loader w with
    | ((a, loader), w) => next a loader w).2
  generalize action loader w = r at hw
  obtain ⟨⟨a, loader'⟩, w'⟩ := r
  exact trans_of R hw (hnext a loader' w')

end Cursor.Steps

/-- A computation with a loader that takes every world to one that stands in a relation to it. -/
abbrev Loading.Steps {α : Type} (R : World → World → Prop) (action : Loading α) : Prop :=
  Cursor.Steps R action.run

namespace Loading

section

variable {α β : Type} {R : World → World → Prop}

theorem steps_ofRun {action : ServiceLoader → Run α}
    (h : ∀ loader, Moves R (action loader)) : Steps R (ofRun action) :=
  fun loader w => h loader w

variable [IsPreorder World R]

theorem Steps.bind {action : Loading α} {next : α → Loading β} (h : Steps R action)
    (hnext : ∀ a, Steps R (next a)) : Steps R (action >>= next) := by
  change Cursor.Steps R (action.run >>= ExceptT.bindCont next)
  refine Cursor.Steps.bind h fun r => ?_
  cases r with
  | error e => exact .of_pure _
  | ok a => exact hnext a

theorem steps_pure (a : α) : Steps R (pure a : Loading α) := Cursor.Steps.of_pure _

theorem steps_get : Steps R (get : Loading ServiceLoader) := fun _ _ => refl_of R _

theorem steps_modify (f : ServiceLoader → ServiceLoader) :
    Steps R (modify f : Loading PUnit) := fun _ _ => refl_of R _

theorem steps_start : Steps R start := by
  refine steps_get.bind fun loader => ?_
  split
  · refine (steps_modify _).bind fun _ => ?_
    refine (steps_ofRun ServiceLoader.moves_providerNames).bind fun names => ?_
    exact steps_modify _
  · exact steps_pure _

end

section

variable {R : World → World → Prop} [Run.Admits R] {importer : Importer} (h : importer.Moves R)

include h

theorem steps_makeNext : Steps R (makeNext importer) := by
  refine steps_get.bind fun loader => ?_
  split
  · exact steps_pure _
  · refine (steps_modify _).bind fun _ => ?_
    refine (steps_ofRun fun loader => loader.moves_providerClass h _).bind fun c => ?_
    refine (steps_modify _).bind fun _ => ?_
    refine (steps_ofRun fun loader => loader.moves_makeInstance c).bind fun made => ?_
    exact (steps_modify _).bind fun _ => steps_pure _

theorem steps_advance : Steps R (advance importer) :=
  steps_start.bind fun _ => (steps_makeNext h).bind fun _ => steps_pure _

theorem steps_next (c : Cursor) : Cursor.Steps R (c.next importer) := by
  have hgive : Cursor.Steps R c.give := by
    refine Cursor.Steps.of_get.bind fun loader => ?_
    split
    · exact .of_pure _
    · exact .of_pure _
  unfold Cursor.next
  split
  · exact .of_pure _
  · refine Cursor.Steps.of_get.bind fun loader => ?_
    split
    · exact hgive
    · refine Cursor.Steps.bind (steps_advance h) fun r => ?_
      split
      · exact .of_pure _
      · exact .of_pure _
      · exact hgive

theorem moves_use_first (loader : ServiceLoader) :
    Moves R (loader.use (first importer)) :=
  fun w => steps_next h {} loader w

end

end Loading

/-! ## Importing -/

section

variable {R : World → World → Prop} [Run.Admits R]

theorem moves_bindIn (module name : String) (o : Object) :
    Moves R (bindIn module name o) := by
  refine .of_modify fun w => ?_
  unfold bindName
  split
  · exact refl_of R w
  · exact Run.Admits.modules w _

variable {importer : Importer} (h : importer.Moves R)

include h

theorem moves_runStatement (module : String) (s : Statement) :
    Moves R (runStatement importer module s) := by
  cases s with
  | declare c => exact (moves_makeClass h _ _ c).bind fun _ => moves_bindIn _ _ _
  | bindRef name r => exact (moves_resolve h _ r).bind fun _ => moves_bindIn _ _ _
  | bindLiteral name value => exact moves_bindIn _ _ _
  | importModule name =>
    exact (h _).bind fun _ => (h _).bind fun _ => moves_bindIn _ _ _
  | raises kind message => exact .of_throw _
  | bindLocalClass name =>
    exact (moves_makeClass h _ _ _).bind fun _ => moves_bindIn _ _ _

theorem moves_importName (module name : String) :
    Moves R (importName importer module name) := by
  refine (h module).bind fun _ => moves_world.bind fun w => ?_
  split
  · exact moves_raise _ _
  · split
    · exact .of_pure _
    · extract_lets inner finish
      have hfinish : ∀ r, Moves R (finish r) := fun _ =>
        moves_world.bind fun _ => .ite (.of_pure _) (moves_raise _ _)
      refine .ite ?_ (hfinish ())
      refine (h _).outcome.bind fun r => ?_
      split
      · exact .ite (hfinish ()) (Moves.bind (.of_throw _) hfinish)
      · exact hfinish ()

theorem moves_runFactory (module : String) (f : FactoryProgram) :
    Moves R (runFactory importer module f) := by
  refine (moves_importName h _ _).bind fun o => (moves_bindIn _ _ o).bind fun _ => ?_
  refine (moves_resolve h _ _).bind fun service => moves_world.bind fun w => ?_
  refine (Loading.moves_use_first h _).bind fun provider => moves_world.bind fun w => ?_
  exact (moves_addClass _).bind fun id => moves_bindIn _ _ _

theorem moves_runProgram (module : String) (program : Program) :
    Moves R (runProgram importer module program) := by
  cases program with
  | statements body => exact .forM (moves_runStatement h module) body
  | factory f => exact moves_runFactory h module f
  | malformed => exact moves_raise _ _

theorem moves_runModule (d : Discovery) : Moves R (runModule importer d) := by
  refine Moves.bind (.of_modify fun w => Run.Admits.modules w _) fun _ => ?_
  refine (moves_runProgram h _ _).outcome.bind fun r => ?_
  split
  · exact .of_modify fun w => Run.Admits.modules w _
  · exact Moves.bind (.of_modify fun w => Run.Admits.modules w _) fun _ => .of_throw _

theorem moves_importBelow (parent name : String) :
    Moves R (importBelow importer parent name) := by
  refine moves_world.bind fun w => ?_
  split
  · exact moves_raise _ _
  · split
    · exact moves_raise _ _
    · refine (moves_runModule h _).bind fun _ => ?_
      exact .ite (.of_pure _) (moves_bindIn _ _ _)

theorem moves_importParts (parent : String) (parts : List String) :
    Moves R (importParts importer parent parts) := by
  induction parts generalizing parent with
  | nil => exact .of_pure _
  | cons part rest ih =>
    refine moves_world.bind fun w => ?_
    extract_lets name
    exact .ite (ih _) ((moves_importBelow h _ _).bind fun _ => ih _)

end

/-- What runs do to a world is all that imports do to it, however deep they go. -/
theorem moves_importWithin {R : World → World → Prop} [Run.Admits R] (depth : Nat) :
    Importer.Moves R (importWithin depth) := by
  induction depth with
  | zero => exact fun _ => moves_raise _ _
  | succ depth ih =>
    intro name
    refine .ite (moves_raise _ _) (.ite (moves_raise _ _) ?_)
    refine moves_world.bind fun w => ?_
    exact moves_importParts ih _ _

theorem moves_importModule {R : World → World → Prop} [Run.Admits R] :
    Importer.Moves R importModule :=
  fun name => moves_world.bind fun _ => moves_importWithin _ name

/-! ## Parts that stay -/

/-- Runs change no file. -/
instance admits_keepsFiles : Run.Admits fun w w' => w'.files = w.files where
  modules _ _ := rfl
  made _ _ := rfl
  classes _ _ := rfl

/-- The classes of a world are still there. -/
def KeepsClasses (w w' : World) : Prop := ∀ id c, w.class? id = some c → w'.class? id = some c

/-- Runs take no class away. -/
instance admits_keepsClasses : Run.Admits KeepsClasses where
  refl _ _ _ h := h
  trans _ _ _ h h' id c hc := h' id c (h id c hc)
  modules _ _ _ _ h := h
  made _ _ _ _ h := h
  classes w c id d h := by
    have hlt : id < w.classes.size := (Array.getElem?_eq_some_iff.mp h).1
    change (w.classes.push c)[id]? = some d
    rw [Array.getElem?_push_lt hlt]
    exact (Array.getElem?_eq_getElem hlt).symm.trans h

end World

end ProviderRegistry
