import Mathlib.Data.List.Forall2
import ProviderRegistry.Proofs.Frames

/-!
# How a loader gets on

A loader tries the providers of the names that it read one after another, each once. What
it has made and which names are left are all that a step changes about it. `Advances` says
what one step can do, and `Progress` what any number of steps have come to: a provider that
could not be made is passed over, and a class that could not be found ends the names.
-/

namespace ProviderRegistry.World

variable {importer : Importer} {loader fresh : ServiceLoader} {w w' w₁ : World}

/-! ## Loaders that differ in what they have made -/

namespace ServiceLoader

/-- A loader that has made some instances and has some names left. -/
def having (loader : ServiceLoader) (made : List Object) (left : Option (List String)) :
    ServiceLoader :=
  { loader with instances := made, pending := left }

/-- A loader that has read nothing yet, or starts anew. -/
def unread (loader : ServiceLoader) : ServiceLoader := loader.having [] none

section

variable (loader : ServiceLoader) (made : List Object) (left : Option (List String))

@[simp] theorem instances_having : (loader.having made left).instances = made := rfl

@[simp] theorem pending_having : (loader.having made left).pending = left := rfl

@[simp] theorem having_having (more : List Object) (less : Option (List String)) :
    (loader.having made left).having more less = loader.having more less := rfl

/-! What a loader reads, finds and makes does not depend on how far it has come. -/

@[simp] theorem providerNames_having :
    (loader.having made left).providerNames = loader.providerNames := rfl

@[simp] theorem providerClass_having :
    (loader.having made left).providerClass importer = loader.providerClass importer := rfl

@[simp] theorem makeInstance_having :
    (loader.having made left).makeInstance = loader.makeInstance := rfl

end

end ServiceLoader

/-! ## Runs of loaders -/

namespace Loading

variable {α β : Type}

theorem run_bind (action : Loading α) (next : α → Loading β) (loader : ServiceLoader) (w : World) :
    (action >>= next).run loader w =
      match action.run loader w with
      | ((.ok a, loader'), w') => (next a).run loader' w'
      | ((.error e, loader'), w') => ((.error e, loader'), w') := by
  have hcont : (action >>= next).run loader w =
      ExceptT.bindCont next (action.run loader w).1.1 (action.run loader w).1.2
        (action.run loader w).2 := rfl
  rw [hcont]
  rcases action.run loader w with ⟨⟨e | a, loader'⟩, w'⟩
  · rfl
  · rfl

theorem run_get_bind (next : ServiceLoader → Loading β) (loader : ServiceLoader) (w : World) :
    (get >>= next).run loader w = (next loader).run loader w := rfl

theorem run_modify_bind (f : ServiceLoader → ServiceLoader) (next : PUnit → Loading β)
    (loader : ServiceLoader) (w : World) :
    ((modify f : Loading PUnit) >>= next).run loader w = (next ⟨⟩).run (f loader) w := rfl

theorem run_ofRun_bind (action : ServiceLoader → Run α) (next : α → Loading β)
    (loader : ServiceLoader) (w : World) :
    (ofRun action >>= next).run loader w =
      match (action loader).run w with
      | (.ok a, w') => (next a).run loader w'
      | (.error e, w') => ((.error e, loader), w') := by
  have hrun : (ofRun action).run loader w =
      ((((action loader).run w).1, loader), ((action loader).run w).2) := rfl
  rw [run_bind, hrun]
  rcases (action loader).run w with ⟨e | a, w'⟩
  · rfl
  · rfl

theorem run_start_of_some {names : List String} (h : loader.pending = some names) (w : World) :
    start.run loader w = ((.ok (), loader), w) := by
  rw [start, run_get_bind, h]
  rfl

theorem run_start_of_none (h : loader.pending = none) (w : World) :
    start.run loader w =
      match loader.providerNames.run w with
      | (.ok names, w') => ((.ok (), loader.having loader.instances (some names)), w')
      | (.error e, w') => ((.error e, loader.having loader.instances (some [])), w') := by
  rw [start, run_get_bind, h]
  change ((modify fun loader : ServiceLoader => loader.having loader.instances (some [])) >>=
    fun _ => ofRun (·.providerNames) >>= fun names =>
      modify fun loader : ServiceLoader => loader.having loader.instances (some names)).run
        loader w = _
  rw [run_modify_bind, run_ofRun_bind, ServiceLoader.providerNames_having]
  rcases loader.providerNames.run w with ⟨r, w'⟩
  cases r <;> rfl

theorem run_makeNext_nil (h : loader.pending = some []) (w : World) :
    (makeNext importer).run loader w = ((.ok none, loader), w) := by
  rw [makeNext, run_get_bind, h]
  rfl

theorem run_makeNext_cons {name : String} {rest : List String}
    (h : loader.pending = some (name :: rest)) (w : World) :
    (makeNext importer).run loader w =
      match (loader.providerClass importer name).run w with
      | (.error e, w') => ((.error e, loader.having loader.instances (some [])), w')
      | (.ok provider, w') =>
        match (loader.makeInstance provider).run w' with
        | (.error e, w') => ((.error e, loader.having loader.instances (some rest)), w')
        | (.ok o, w') =>
          ((.ok (some o), loader.having (loader.instances ++ [o]) (some rest)), w') := by
  rw [makeNext, run_get_bind, h]
  change ((modify fun loader : ServiceLoader => loader.having loader.instances (some [])) >>=
    fun _ => ofRun (·.providerClass importer name) >>= fun provider =>
      (modify fun loader : ServiceLoader => loader.having loader.instances (some rest)) >>=
        fun _ => ofRun (·.makeInstance provider) >>= fun made =>
          (modify fun loader : ServiceLoader =>
            loader.having (loader.instances ++ [made]) loader.pending) >>= fun _ =>
              pure (some made)).run loader w = _
  rw [run_modify_bind, run_ofRun_bind, ServiceLoader.providerClass_having]
  rcases (loader.providerClass importer name).run w with ⟨r, w'⟩
  cases r with
  | error e => rfl
  | ok provider =>
    simp only [run_modify_bind, run_ofRun_bind, ServiceLoader.having_having,
      ServiceLoader.makeInstance_having]
    rcases (loader.makeInstance provider).run w' with ⟨r, w'⟩
    cases r <;> rfl

end Loading

/-! ## One step -/

/-- The names that a loader works on when it makes one more instance: those that are left,
or those in the registry files if it has read none. -/
inductive Faces (loader : ServiceLoader) (w : World) : List String → World → Prop
  | left {names : List String} : loader.pending = some names → Faces loader w names w
  | read {names : List String} {w' : World} : loader.pending = none →
      loader.providerNames.run w = (.ok names, w') → Faces loader w names w'

/-- What a loader does to make one more instance. -/
inductive Advances (importer : Importer) (loader : ServiceLoader) (w : World) :
    Except Raised Bool → ServiceLoader → World → Prop
  /-- The names cannot be read, and none are left. -/
  | unreadable {e : Raised} {w' : World} : loader.pending = none →
      loader.providerNames.run w = (.error e, w') →
      Advances importer loader w (.error e) (loader.having loader.instances (some [])) w'
  | exhausted {w' : World} : Faces loader w [] w' →
      Advances importer loader w (.ok false) (loader.having loader.instances (some [])) w'
  /-- The class of the next provider cannot be found, and no names are left. -/
  | lost {name : String} {rest : List String} {w₁ w' : World} {e : Raised} :
      Faces loader w (name :: rest) w₁ →
      (loader.providerClass importer name).run w₁ = (.error e, w') →
      Advances importer loader w (.error e) (loader.having loader.instances (some [])) w'
  /-- The next provider cannot be made, and the names after it are left. -/
  | refused {name : String} {rest : List String} {provider : Object} {w₁ w₂ w' : World}
      {e : Raised} : Faces loader w (name :: rest) w₁ →
      (loader.providerClass importer name).run w₁ = (.ok provider, w₂) →
      (loader.makeInstance provider).run w₂ = (.error e, w') →
      Advances importer loader w (.error e) (loader.having loader.instances (some rest)) w'
  | made {name : String} {rest : List String} {provider o : Object} {w₁ w₂ w' : World} :
      Faces loader w (name :: rest) w₁ →
      (loader.providerClass importer name).run w₁ = (.ok provider, w₂) →
      (loader.makeInstance provider).run w₂ = (.ok o, w') →
      Advances importer loader w (.ok true) (loader.having (loader.instances ++ [o]) (some rest)) w'

/-- Starting to work on the names leaves them to the loader. -/
theorem Faces.run_start {names : List String} (h : Faces loader w names w₁) :
    Loading.start.run loader w =
      ((.ok (), loader.having loader.instances (some names)), w₁) := by
  cases h with
  | left hpending =>
    have hsame : loader.having loader.instances (some names) = loader := by
      rw [← hpending]
      rfl
    rw [hsame, Loading.run_start_of_some hpending]
  | read hpending hnames => rw [Loading.run_start_of_none hpending, hnames]

theorem Faces.run_advance {names : List String} (h : Faces loader w names w₁) :
    (Loading.advance importer).run loader w =
      (Loading.makeNext importer >>= fun made => pure made.isSome).run
        (loader.having loader.instances (some names)) w₁ := by
  change (Loading.start >>= fun _ =>
    Loading.makeNext importer >>= fun made => pure made.isSome).run loader w = _
  rw [Loading.run_bind, h.run_start]

/-- A step has the result that `Advances` says. -/
theorem Advances.run_eq {result : Except Raised Bool} {loader' : ServiceLoader}
    (h : Advances importer loader w result loader' w') :
    (Loading.advance importer).run loader w = ((result, loader'), w') := by
  cases h with
  | unreadable hpending hread =>
    change (Loading.start >>= fun _ =>
      Loading.makeNext importer >>= fun made => pure made.isSome).run loader w = _
    rw [Loading.run_bind, Loading.run_start_of_none hpending, hread]
  | exhausted hfaces =>
    rw [hfaces.run_advance, Loading.run_bind, Loading.run_makeNext_nil rfl]
    rfl
  | lost hfaces hclass =>
    rw [hfaces.run_advance, Loading.run_bind, Loading.run_makeNext_cons rfl,
      ServiceLoader.providerClass_having, hclass]
    rfl
  | refused hfaces hclass hmade =>
    rw [hfaces.run_advance, Loading.run_bind, Loading.run_makeNext_cons rfl,
      ServiceLoader.providerClass_having, hclass]
    simp only [ServiceLoader.makeInstance_having, hmade]
    rfl
  | made hfaces hclass hmade =>
    rw [hfaces.run_advance, Loading.run_bind, Loading.run_makeNext_cons rfl,
      ServiceLoader.providerClass_having, hclass]
    simp only [ServiceLoader.makeInstance_having, hmade]
    rfl

theorem Faces.exists_advances (importer : Importer) {names : List String}
    (h : Faces loader w names w₁) :
    ∃ result loader' w', Advances importer loader w result loader' w' := by
  cases names with
  | nil => exact ⟨_, _, _, .exhausted h⟩
  | cons name rest =>
    rcases hclass : (loader.providerClass importer name).run w₁ with ⟨e | provider, w₂⟩
    · exact ⟨_, _, _, .lost h hclass⟩
    · rcases hmade : (loader.makeInstance provider).run w₂ with ⟨e | o, w'⟩
      · exact ⟨_, _, _, .refused h hclass hmade⟩
      · exact ⟨_, _, _, .made h hclass hmade⟩

/-- **One step**, whatever comes of it, is one of those that `Advances` lists. -/
theorem exists_advances (importer : Importer) (loader : ServiceLoader) (w : World) :
    ∃ result loader' w', Advances importer loader w result loader' w' := by
  cases hpending : loader.pending with
  | some names => exact Faces.exists_advances importer (.left hpending)
  | none =>
    rcases hread : loader.providerNames.run w with ⟨e | names, w₁⟩
    · exact ⟨_, _, _, .unreadable hpending hread⟩
    · exact Faces.exists_advances importer (.read hpending hread)

/-! ## Many steps -/

/-- The exception that a result is. -/
def exception? {α : Type} : Except Raised α → Option Raised
  | .error e => some e
  | .ok _ => none

namespace ServiceLoader

/-- An instance of the provider of a name. -/
def provide (importer : Importer) (loader : ServiceLoader) (name : String) : Run Object := do
  loader.makeInstance (← loader.providerClass importer name)

/-- Whether an object is an instance of the provider of a name: the name leads to a class,
and calling the class gives the object. -/
def Provides (importer : Importer) (loader : ServiceLoader) (name : String) (o : Object) : Prop :=
  ∃ w id w₁ w', (loader.providerClass importer name).run w = (.ok (.type id), w₁) ∧
    (instantiate id).run w₁ = (.ok o, w')

theorem of_makeInstance_eq_ok {provider o : Object}
    (h : (loader.makeInstance provider).run w = (.ok o, w')) :
    ∃ id, provider = .type id ∧ (instantiate id).run w = (.ok o, w') := by
  cases provider with
  | type id =>
    refine ⟨id, rfl, ?_⟩
    rw [makeInstance, Leaves.run_bind, Run.run_outcome] at h
    rcases hmade : (instantiate id).run w with ⟨r, w₁⟩
    rw [hmade] at h
    cases r with
    | ok made => exact h
    | error e =>
      -- Whatever the exception is turned into, there is no object.
      simp only at h
      split at h
      · obtain ⟨name, w₂, -, hfault⟩ := Leaves.run_bind_eq_ok_iff.mp h
        exact absurd hfault Leaves.run_bind_throw_ne_ok
      · cases h
  | literal l => cases h
  | module name => cases h
  | instanceOf type number => cases h
  | function owner name => cases h

end ServiceLoader

/-- The providers of some names, tried in turn from a world on: each with what came of it,
the names that are left, and the world that this has led to. -/
inductive Tried (importer : Importer) (loader : ServiceLoader) (names : List String) (w : World) :
    List (String × Except Raised Object) → List String → World → Prop
  | start : Tried importer loader names w [] names w
  | lost {tried : List (String × Except Raised Object)} {name : String} {rest : List String}
      {w₁ w' : World} {e : Raised} : Tried importer loader names w tried (name :: rest) w₁ →
      (loader.providerClass importer name).run w₁ = (.error e, w') →
      Tried importer loader names w (tried ++ [(name, .error e)]) [] w'
  | refused {tried : List (String × Except Raised Object)} {name : String} {rest : List String}
      {provider : Object} {w₁ w₂ w' : World} {e : Raised} :
      Tried importer loader names w tried (name :: rest) w₁ →
      (loader.providerClass importer name).run w₁ = (.ok provider, w₂) →
      (loader.makeInstance provider).run w₂ = (.error e, w') →
      Tried importer loader names w (tried ++ [(name, .error e)]) rest w'
  | made {tried : List (String × Except Raised Object)} {name : String} {rest : List String}
      {provider o : Object} {w₁ w₂ w' : World} :
      Tried importer loader names w tried (name :: rest) w₁ →
      (loader.providerClass importer name).run w₁ = (.ok provider, w₂) →
      (loader.makeInstance provider).run w₂ = (.ok o, w') →
      Tried importer loader names w (tried ++ [(name, .ok o)]) rest w'

/-- The instances among what came of providers. -/
def instancesOf (tried : List (String × Except Raised Object)) : List Object :=
  tried.filterMap (·.2.toOption)

/-- The exceptions among what came of providers. -/
def exceptionsOf (tried : List (String × Except Raised Object)) : List Raised :=
  tried.filterMap (exception? ·.2)

/-- The names whose provider could be made, each with the instance. -/
def madeOf (tried : List (String × Except Raised Object)) : List (String × Object) :=
  tried.filterMap fun t => t.2.toOption.map (t.1, ·)

@[simp] theorem map_snd_madeOf (tried : List (String × Except Raised Object)) :
    (madeOf tried).map (·.2) = instancesOf tried := by
  simp [madeOf, instancesOf, List.map_filterMap, Option.map_map, Function.comp_def]

theorem map_fst_madeOf_sublist (tried : List (String × Except Raised Object)) :
    ((madeOf tried).map (·.1)).Sublist (tried.map (·.1)) := by
  induction tried with
  | nil => exact List.Sublist.refl _
  | cons t rest ih =>
    obtain ⟨name, e | o⟩ := t
    · exact ih.cons name
    · exact ih.cons_cons name

/-- What came of a provider is an instance or an exception. -/
theorem length_madeOf_add (tried : List (String × Except Raised Object)) :
    (madeOf tried).length + (exceptionsOf tried).length = tried.length := by
  induction tried with
  | nil => rfl
  | cons t rest ih =>
    obtain ⟨name, e | o⟩ := t
    · simp only [madeOf, exceptionsOf, Except.toOption, exception?, List.filterMap_cons,
        Option.map_none, List.length_cons] at ih ⊢
      omega
    · simp only [madeOf, exceptionsOf, Except.toOption, exception?, List.filterMap_cons,
        Option.map_some, List.length_cons] at ih ⊢
      omega

@[simp] theorem instancesOf_concat_ok (tried : List (String × Except Raised Object)) (name : String)
    (o : Object) : instancesOf (tried ++ [(name, .ok o)]) = instancesOf tried ++ [o] := by
  simp [instancesOf, Except.toOption]

@[simp] theorem instancesOf_concat_error (tried : List (String × Except Raised Object))
    (name : String) (e : Raised) :
    instancesOf (tried ++ [(name, .error e)]) = instancesOf tried := by
  simp [instancesOf, Except.toOption]

@[simp] theorem exceptionsOf_concat_ok (tried : List (String × Except Raised Object))
    (name : String) (o : Object) :
    exceptionsOf (tried ++ [(name, .ok o)]) = exceptionsOf tried := by
  simp [exceptionsOf, exception?]

@[simp] theorem exceptionsOf_concat_error (tried : List (String × Except Raised Object))
    (name : String) (e : Raised) :
    exceptionsOf (tried ++ [(name, .error e)]) = exceptionsOf tried ++ [e] := by
  simp [exceptionsOf, exception?]

/-- How far a loader has come that had read nothing in a world: the exceptions that it has
raised, what it is now and the world now. -/
inductive Progress (importer : Importer) (loader : ServiceLoader) (w : World) :
    List Raised → ServiceLoader → World → Prop
  | unread : Progress importer loader w [] loader.unread w
  | unreadable {e : Raised} {w' : World} : loader.providerNames.run w = (.error e, w') →
      Progress importer loader w [e] (loader.having [] (some [])) w'
  | reading {names left : List String} {tried : List (String × Except Raised Object)}
      {w₁ w' : World} : loader.providerNames.run w = (.ok names, w₁) →
      Tried importer loader names w₁ tried left w' →
      Progress importer loader w (exceptionsOf tried)
        (loader.having (instancesOf tried) (some left)) w'

/-- A loader that has read its names works on those that are left. -/
theorem Faces.eq_left {made : List Object} {left names : List String}
    (h : Faces (loader.having made (some left)) w names w') : left = names ∧ w = w' := by
  cases h with
  | left hpending => exact ⟨Option.some.inj hpending, rfl⟩
  | read hpending _ => cases hpending

/-- A loader that has read nothing reads its names first. -/
theorem Faces.run_providerNames {names : List String} (h : Faces loader.unread w names w') :
    loader.providerNames.run w = (.ok names, w') := by
  cases h with
  | left hpending => cases hpending
  | read _ hnames => exact hnames

/-- **A step gets a loader further**, or leaves it where it is when no names are left. -/
theorem Progress.advance {raised : List Raised} {loader' loader'' : ServiceLoader}
    {result : Except Raised Bool} (h : Progress importer loader w raised loader' w₁)
    (hstep : Advances importer loader' w₁ result loader'' w') :
    Progress importer loader w (raised ++ (exception? result).toList) loader'' w' := by
  cases h with
  | unread =>
    cases hstep with
    | unreadable _ hnames => exact .unreadable hnames
    | exhausted hfaces => exact .reading hfaces.run_providerNames .start
    | lost hfaces hclass => exact .reading hfaces.run_providerNames (.lost .start hclass)
    | refused hfaces hclass hmade =>
      exact .reading hfaces.run_providerNames (.refused .start hclass hmade)
    | made hfaces hclass hmade =>
      exact .reading hfaces.run_providerNames (.made .start hclass hmade)
  | unreadable hnames =>
    -- No names are left, so that nothing can be tried.
    cases hstep with
    | unreadable hpending _ => cases hpending
    | exhausted hfaces =>
      obtain ⟨-, rfl⟩ := hfaces.eq_left
      exact .unreadable hnames
    | lost hfaces _ => cases hfaces.eq_left.1
    | refused hfaces _ _ => cases hfaces.eq_left.1
    | made hfaces _ _ => cases hfaces.eq_left.1
  | reading hnames htried =>
    cases hstep with
    | unreadable hpending _ => cases hpending
    | exhausted hfaces =>
      obtain ⟨rfl, rfl⟩ := hfaces.eq_left
      simpa [exception?] using Progress.reading hnames htried
    | lost hfaces hclass =>
      obtain ⟨rfl, rfl⟩ := hfaces.eq_left
      simpa [exception?] using Progress.reading hnames (htried.lost hclass)
    | refused hfaces hclass hmade =>
      obtain ⟨rfl, rfl⟩ := hfaces.eq_left
      simpa [exception?] using Progress.reading hnames (htried.refused hclass hmade)
    | made hfaces hclass hmade =>
      obtain ⟨rfl, rfl⟩ := hfaces.eq_left
      simpa [exception?] using Progress.reading hnames (htried.made hclass hmade)

/-! ## What was tried -/

namespace Tried

variable {names left : List String} {tried : List (String × Except Raised Object)}
  (h : Tried importer loader names w tried left w')

include h

/-- The names tried and the names left are names read, in their order. -/
theorem sublist : (tried.map (·.1) ++ left).Sublist names := by
  induction h with
  | start => exact List.Sublist.refl _
  | lost _ _ ih =>
    refine List.Sublist.trans ?_ ih
    simp
  | refused _ _ _ ih => simpa using ih
  | made _ _ _ ih => simpa using ih

/-- Unless an exception was raised, every name read is tried or left. -/
theorem eq_of_exceptionsOf_eq_nil (hnone : exceptionsOf tried = []) :
    tried.map (·.1) ++ left = names := by
  induction h with
  | start => rfl
  | lost _ _ _ => simp at hnone
  | refused _ _ _ _ => simp at hnone
  | made _ _ _ ih => simpa using ih (by simpa using hnone)

/-- **What was made is all that was asked for just when no exception was raised**, once no
names are left. -/
theorem map_fst_madeOf_eq_iff (hleft : left = []) :
    (madeOf tried).map (·.1) = names ↔ exceptionsOf tried = [] := by
  subst hleft
  have hmade := map_fst_madeOf_sublist tried
  have hnames : (tried.map (·.1)).Sublist names := by simpa using h.sublist
  have hlength := length_madeOf_add tried
  constructor
  · rintro rfl
    have hle := hnames.length_le
    simp only [List.length_map] at hle
    exact List.length_eq_zero_iff.mp (by omega)
  · intro hnone
    have hall : tried.map (·.1) = names := by simpa using h.eq_of_exceptionsOf_eq_nil hnone
    rw [hnone, List.length_nil, Nat.add_zero] at hlength
    exact hall ▸ hmade.eq_of_length (by simp [hlength])

/-- An object that came of a provider is an instance of it. -/
theorem provides : ∀ t ∈ tried, ∀ o, t.2 = .ok o → loader.Provides importer t.1 o := by
  induction h with
  | start => simp
  | lost _ _ ih => simpa [or_imp, forall_and] using ih
  | refused _ _ _ ih => simpa [or_imp, forall_and] using ih
  | made _ hclass hmade ih =>
    obtain ⟨id, rfl, hinstance⟩ := ServiceLoader.of_makeInstance_eq_ok hmade
    intro t ht o ho
    rcases List.mem_append.mp ht with ht | ht
    · exact ih t ht o ho
    · obtain rfl := List.mem_singleton.mp ht
      cases ho
      exact ⟨_, id, _, _, hclass, hinstance⟩

theorem provides_of_mem_madeOf : ∀ m ∈ madeOf tried, loader.Provides importer m.1 m.2 := by
  intro m hm
  obtain ⟨t, ht, hmade⟩ := List.mem_filterMap.mp hm
  obtain ⟨name, e | o⟩ := t
  · cases hmade
  · cases hmade
    exact h.provides _ ht o rfl

end Tried

/-! ## Names read -/

namespace ServiceLoader

/-- Reading the registry files leaves the world as it is. -/
theorem run_providerNames_snd (loader : ServiceLoader) (w : World) :
    (loader.providerNames.run w).2 = w :=
  (moves_providerNames loader : Leaves id loader.providerNames) w

theorem nodup_addNames {path : Path} {lineNumber : Nat} {lines : List (List Char)}
    {names found : List String} (hnames : names.Nodup)
    (h : addNames path lineNumber lines names = .ok found) : found.Nodup := by
  induction lines generalizing lineNumber names with
  | nil =>
    obtain rfl : names = found := by simpa [addNames] using h
    exact hnames
  | cons line rest ih =>
    rw [addNames] at h
    split at h
    · cases h
    · exact ih hnames h
    · next name _ =>
      refine ih ?_ h
      split
      · exact hnames
      · next hnew =>
        have hother : ∀ a ∈ names, a ≠ name := by
          rintro a ha rfl
          exact hnew (List.contains_iff_mem.mpr ha)
        simpa [List.nodup_append, hnames] using hother

theorem nodup_namesIn {path : Path} {names found : List String} (hnames : names.Nodup)
    (h : (loader.namesIn names path).run w = (.ok found, w')) : found.Nodup := by
  rw [namesIn, Run.world, Leaves.run_get_bind] at h
  split at h
  · exact absurd h Leaves.run_bind_throw_ne_ok
  · split at h
    · cases h
    · next hadd =>
      cases h
      exact nodup_addNames hnames hadd

/-- **Each name is read once.** -/
theorem nodup_of_run_providerNames {names : List String}
    (h : loader.providerNames.run w = (.ok names, w')) : names.Nodup := by
  have hfold {paths : List Path} {before : List String} {w₁ : World} (hbefore : before.Nodup)
      (hrun : (paths.foldlM loader.namesIn before).run w₁ = (.ok names, w')) : names.Nodup := by
    induction paths generalizing before w₁ with
    | nil =>
      cases hrun
      exact hbefore
    | cons path rest ih =>
      rw [List.foldlM_cons] at hrun
      obtain ⟨middle, w₂, hread, hrest⟩ := Leaves.run_bind_eq_ok_iff.mp hrun
      exact ih (nodup_namesIn hbefore hread) hrest
  obtain ⟨name, w₁, -, h⟩ := Leaves.run_bind_eq_ok_iff.mp h
  obtain ⟨paths, w₂, -, h⟩ := Leaves.run_bind_eq_ok_iff.mp h
  exact hfold List.nodup_nil h

end ServiceLoader

/-! ## Providers that can all be made -/

section

variable {α β : Type} {f : α → Run β}

theorem of_run_mapM_cons {a : α} {rest : List α} {results : List β}
    (h : ((a :: rest).mapM f).run w = (.ok results, w')) :
    ∃ b w₁ more, (f a).run w = (.ok b, w₁) ∧ (rest.mapM f).run w₁ = (.ok more, w') ∧
      results = b :: more := by
  rw [List.mapM_cons] at h
  obtain ⟨b, w₁, hfirst, h⟩ := Leaves.run_bind_eq_ok_iff.mp h
  obtain ⟨more, w₂, hrest, h⟩ := Leaves.run_bind_eq_ok_iff.mp h
  cases h
  exact ⟨b, w₁, more, hfirst, hrest, rfl⟩

theorem of_run_mapM_append {before rest : List α} {results : List β}
    (h : ((before ++ rest).mapM f).run w = (.ok results, w')) :
    ∃ first w₁ more, (before.mapM f).run w = (.ok first, w₁) ∧
      (rest.mapM f).run w₁ = (.ok more, w') ∧ results = first ++ more := by
  rw [List.mapM_append] at h
  obtain ⟨first, w₁, hfirst, h⟩ := Leaves.run_bind_eq_ok_iff.mp h
  obtain ⟨more, w₂, hrest, h⟩ := Leaves.run_bind_eq_ok_iff.mp h
  cases h
  exact ⟨first, w₁, more, hfirst, hrest, rfl⟩

theorem run_mapM_concat {before : List α} {a : α} {results : List β} {b : β}
    (h : (before.mapM f).run w = (.ok results, w₁)) (ha : (f a).run w₁ = (.ok b, w')) :
    ((before ++ [a]).mapM f).run w = (.ok (results ++ [b]), w') := by
  rw [List.mapM_append, Leaves.run_bind, h]
  simp only
  rw [Leaves.run_bind, List.mapM_cons, Leaves.run_bind, ha]
  rfl

end

namespace ServiceLoader

theorem run_provide (importer : Importer) (loader : ServiceLoader) (name : String) (w : World) :
    (loader.provide importer name).run w =
      match (loader.providerClass importer name).run w with
      | (.ok provider, w') => (loader.makeInstance provider).run w'
      | (.error e, w') => (.error e, w') := by
  rw [provide, Leaves.run_bind]
  rcases (loader.providerClass importer name).run w with ⟨r, w'⟩
  cases r <;> rfl

theorem provides_of_run_provide {name : String} {o : Object}
    (h : (loader.provide importer name).run w = (.ok o, w')) :
    loader.Provides importer name o := by
  rw [run_provide] at h
  split at h
  · next provider w₁ hclass =>
    obtain ⟨id, rfl, hmade⟩ := of_makeInstance_eq_ok h
    exact ⟨w, id, w₁, w', hclass, hmade⟩
  · cases h

/-- Making the providers of some names gives an instance of each. -/
theorem provides_of_run_mapM {names : List String} {objects : List Object}
    (h : (names.mapM (loader.provide importer)).run w = (.ok objects, w')) :
    List.Forall₂ (loader.Provides importer) names objects := by
  induction names generalizing w objects with
  | nil =>
    cases h
    exact .nil
  | cons name rest ih =>
    obtain ⟨o, w₁, more, hfirst, hrest, rfl⟩ := of_run_mapM_cons h
    exact .cons (provides_of_run_provide hfirst) (ih hrest)

end ServiceLoader

namespace Tried

variable {names left : List String} {tried : List (String × Except Raised Object)}

/-- If the providers of some names can all be made in turn, then those that a loader has
tried have been made, and the world is the one that making these leads to. -/
theorem of_run_mapM {objects : List Object} (h : Tried importer loader names w tried left w₁)
    (hall : (names.mapM (loader.provide importer)).run w = (.ok objects, w')) :
    exceptionsOf tried = [] ∧
      ((tried.map (·.1)).mapM (loader.provide importer)).run w = (.ok (instancesOf tried), w₁) := by
  -- Whatever is tried next is tried in the world in which making all of them goes on.
  have hnext {tried : List (String × Except Raised Object)} {name : String} {rest : List String}
      {w₁ : World} (htried : Tried importer loader names w tried (name :: rest) w₁)
      (hmade : exceptionsOf tried = [] ∧
        ((tried.map (·.1)).mapM (loader.provide importer)).run w =
          (.ok (instancesOf tried), w₁)) :
      ∃ o w₂, (loader.provide importer name).run w₁ = (.ok o, w₂) := by
    rw [← htried.eq_of_exceptionsOf_eq_nil hmade.1] at hall
    obtain ⟨first, w₂, more, hfirst, hmore, -⟩ := of_run_mapM_append hall
    rw [hmade.2] at hfirst
    cases hfirst
    obtain ⟨o, w₃, -, hname, -, -⟩ := of_run_mapM_cons hmore
    exact ⟨o, w₃, hname⟩
  induction h with
  | start => exact ⟨rfl, rfl⟩
  | lost htried hclass ih =>
    obtain ⟨o, w₂, hname⟩ := hnext htried ih
    rw [ServiceLoader.run_provide, hclass] at hname
    cases hname
  | refused htried hclass hmade ih =>
    obtain ⟨o, w₂, hname⟩ := hnext htried ih
    rw [ServiceLoader.run_provide, hclass] at hname
    simp only [hmade] at hname
    cases hname
  | @made tried name rest provider o w₂ w₃ w₄ htried hclass hmade ih =>
    have hname : (loader.provide importer name).run w₂ = (.ok o, w₄) := by
      rw [ServiceLoader.run_provide, hclass]
      exact hmade
    refine ⟨by simpa using ih.1, ?_⟩
    rw [List.map_append, instancesOf_concat_ok]
    exact run_mapM_concat ih.2 hname

end Tried

end ProviderRegistry.World
