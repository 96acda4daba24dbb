import ProviderRegistry.Proofs.Asking
import ProviderRegistry.Proofs.Linearising

/-!
# Tours through modules

What a scan of live classes does is the tour that it makes through its modules (`Tour`): each
module that it tries to import is an arrival, with what came of it. The classes that it finds are
those of the modules that could be imported, a name keeping its first class, and what it reports
are the others (`run_scan_of_new`). A tour can end early: where a package is walked, the packages
in it are imported on the way, and of these an exception ends the tour if it says anything else
than that something could not be imported (`Tour.Sound`). A tour that does not end early leaves
no module out (`LiveModel.came_of_tour`).
-/

namespace ProviderRegistry

/-! ## First values -/

namespace Table

variable {κ α : Type} [BEq κ]

theorem mem_setMissing {table : Table κ α} {key : κ} {value : α} {entry : κ × α}
    (h : entry ∈ table.setMissing key value) : entry ∈ table ∨ entry = (key, value) := by
  rw [setMissing] at h
  split at h
  · exact .inl h
  · exact (List.mem_append.mp h).imp_right List.mem_singleton.mp

/-- The table of the first values of some keys. -/
def firsts (entries : List (κ × α)) : Table κ α :=
  entries.foldl (fun table entry => table.setMissing entry.1 entry.2) []

theorem mem_of_mem_firsts {entries : List (κ × α)} {entry : κ × α} (h : entry ∈ firsts entries) :
    entry ∈ entries := by
  refine List.foldlRecOn (motive := fun table : Table κ α => ∀ e ∈ table, e ∈ entries) entries _
    (List.forall_mem_nil _) (fun table htable added hadded e he => ?_) entry h
  rcases mem_setMissing he with hold | rfl
  · exact htable e hold
  · exact hadded

variable [LawfulBEq κ]

theorem keys_setMissing (table : Table κ α) (key : κ) (value : α) :
    (table.setMissing key value).map (·.1) =
      if key ∈ table.map (·.1) then table.map (·.1) else table.map (·.1) ++ [key] := by
  have hhas : (table.lookup key).isSome = true ↔ key ∈ table.map (·.1) := has_iff
  rw [setMissing]
  by_cases h : key ∈ table.map (·.1)
  · rw [if_pos h, if_pos (hhas.mpr h)]
  · rw [if_neg h, if_neg fun hsome => h (hhas.mp hsome), List.map_append, List.map_singleton]

theorem lookup_setMissing (table : Table κ α) (key : κ) (value : α) (name : κ) :
    (table.setMissing key value).lookup name =
      (table.lookup name).or (List.lookup name [(key, value)]) := by
  rw [setMissing]
  split
  next h =>
    rw [List.lookup_cons]
    by_cases heq : name = key
    · rw [heq]
      obtain ⟨found, hfound⟩ := Option.isSome_iff_exists.mp h
      rw [hfound, Option.some_or]
    · rw [beq_false_of_ne heq]
      exact Option.or_none.symm
  next => exact List.lookup_append

theorem lookup_foldl_setMissing (entries : List (κ × α)) (table : Table κ α) (name : κ) :
    (entries.foldl (fun table entry => table.setMissing entry.1 entry.2) table).lookup name =
      (table.lookup name).or (entries.lookup name) := by
  induction entries generalizing table with
  | nil => exact Option.or_none.symm
  | cons entry rest ih =>
    rw [List.foldl_cons, ih, lookup_setMissing, Option.or_assoc, ← List.lookup_append]
    rfl

/-- Each key has the value that it had first. -/
theorem lookup_firsts (entries : List (κ × α)) (name : κ) :
    (firsts entries).lookup name = entries.lookup name := by
  rw [firsts, lookup_foldl_setMissing]
  rfl

theorem nodup_firsts (entries : List (κ × α)) : ((firsts entries).map (·.1)).Nodup := by
  have hnil : (([] : Table κ α).map (·.1)).Nodup := List.nodup_nil
  refine List.foldlRecOn (motive := fun table : Table κ α => (table.map (·.1)).Nodup) entries _
    hnil fun table htable entry _ => ?_
  rw [keys_setMissing]
  split
  · exact htable
  next h =>
    rw [← List.concat_eq_append]
    exact htable.concat h

end Table

open World

namespace Symbols

/-! ## Tours -/

/-- A module that a scan has tried to import: what came of it, and the world after it. -/
structure Arrival where
  module : String
  result : Except Raised Unit
  world : World

namespace Arrival

/-- The classes of a module that could be imported, by their qualified names. -/
def classes (a : Arrival) : List (String × ClassId) :=
  match a.result with
  | .ok () => (Surveying.classesOf a.world a.module).filterMap fun id =>
      (a.world.class? id).map fun c => (c.qualifiedName, id)
  | .error _ => []

/-- What is reported of a module that could not be imported. -/
def report? (a : Arrival) : Option String :=
  match a.result with
  | .ok () => none
  | .error e =>
    if e.isA "Exception" then some ("Could not import " ++ a.module ++ ": " ++ e.message) else none

/-- Whether a module could be imported, or the exception that ends the tour with it. -/
def outcome (a : Arrival) : Except Raised Bool :=
  match a.result with
  | .ok () => .ok true
  | .error e => if e.isA "Exception" then .ok false else .error e

end Arrival

/-- A tour through modules: the modules that it came to, what it ended with, and the world after
it. -/
structure Tour (α : Type) where
  arrivals : List Arrival
  result : Except Raised α
  world : World

namespace Tour

variable {α β : Type}

/-- A tour that goes nowhere. -/
def stay (a : α) (w : World) : Tour α := ⟨[], .ok a, w⟩

/-- A tour that only does something to the world. -/
def look (action : Run α) (w : World) : Tour α := ⟨[], (action.run w).1, (action.run w).2⟩

/-- A tour, and another one from where it ended, unless it has ended early. -/
def andThen (t : Tour α) (next : α → World → Tour β) : Tour β :=
  match t.result with
  | .error e => ⟨t.arrivals, .error e, t.world⟩
  | .ok a =>
    let u := next a t.world
    ⟨t.arrivals ++ u.arrivals, u.result, u.world⟩

theorem andThen_of_ok {t : Tour α} {a : α} (h : t.result = .ok a) (next : α → World → Tour β) :
    t.andThen next = ⟨t.arrivals ++ (next a t.world).arrivals, (next a t.world).result,
      (next a t.world).world⟩ := by
  simp only [andThen, h]

theorem andThen_of_error {t : Tour α} {e : Raised} (h : t.result = .error e)
    (next : α → World → Tour β) : t.andThen next = ⟨t.arrivals, .error e, t.world⟩ := by
  simp only [andThen, h]

/-- Tours for some names, one after another. -/
def each (visit : String → World → Tour Unit) : List String → World → Tour Unit
  | [], w => stay () w
  | name :: rest, w => (visit name w).andThen fun _ => each visit rest

/-- A module that a tour comes to. -/
def arrive (name : String) (w : World) : Arrival :=
  ⟨name, ((importModule name).run w).1, ((importModule name).run w).2⟩

/-- A tour to one module. -/
def visit (name : String) (w : World) : Tour Bool :=
  ⟨[arrive name w], (arrive name w).outcome, (arrive name w).world⟩

/-- The names of the modules in a package, which the world alone decides. -/
def walkFrom (depth : Nat) (package : String) : Run (List String) := fun w =>
  let (result, s) := (Surveying.walk depth package).run ⟨⟨[], [], true, none, [], []⟩, w, ⟨[]⟩⟩
  (result, s.world)

/-- A tour to the modules in a package. -/
def inside (package : String) (w : World) : Tour Unit :=
  (look (walkFrom (w.files.nodes.length + 1) package) w).andThen fun names =>
    each (fun name w => (visit name w).andThen fun _ => stay ()) names.mergeSort

/-- A tour to a module and, if it is a package, to those in it. -/
def visitAll (recursive : Bool) (name : String) (w : World) : Tour Unit :=
  (visit name w).andThen fun imported w =>
    if imported then if recursive && w.isPackage name then inside name w else stay () w
    else stay () w

end Tour

/-- The classes that are known after some more modules have been come to. -/
def gathered (arrivals : List Arrival) (types : Table String ClassId) : Table String ClassId :=
  (arrivals.flatMap Arrival.classes).foldl
    (fun types entry => Table.setMissing types entry.1 entry.2) types

/-- What a tour makes of what a scan works on. -/
def Survey.after {α : Type} (s : Survey) (t : Tour α) : Survey where
  model := { s.model with types := s.model.types.map (gathered t.arrivals) }
  world := t.world
  reports := s.reports.errors (t.arrivals.filterMap Arrival.report?)

namespace Survey

variable {α β : Type}

theorem after_look (s : Survey) (action : Run α) :
    s.after (Tour.look action s.world) = { s with world := (action.run s.world).2 } := by
  have htypes : s.model.types.map (gathered []) = s.model.types := Option.map_id'
  simp only [after, Tour.look, htypes, List.filterMap_nil, Reports.errors, List.map_nil,
    List.append_nil]

theorem after_stay (s : Survey) (a : α) : s.after (Tour.stay a s.world) = s :=
  s.after_look (pure a)

/-- What a tour of two parts makes is what the second makes of what the first has made. -/
theorem after_append (s : Survey) (t : Tour α) (u : Tour β) (result : Except Raised β) :
    s.after ⟨t.arrivals ++ u.arrivals, result, u.world⟩ = (s.after t).after u := by
  have htypes : s.model.types.map (gathered (t.arrivals ++ u.arrivals)) =
      (s.model.types.map (gathered t.arrivals)).map (gathered u.arrivals) := by
    rw [Option.map_map]
    congr 1
    funext types
    rw [gathered, List.flatMap_append, List.foldl_append]
    rfl
  simp only [after, htypes, Reports.errors, List.filterMap_append, List.map_append,
    List.append_assoc]

end Survey

namespace Surveying

variable {α β : Type}

/-- A part of a scan makes a tour. -/
def Makes (action : Surveying α) (tour : World → Tour α) : Prop :=
  ∀ s : Survey, s.model.types.isSome = true →
    action.run s = ((tour s.world).result, s.after (tour s.world))

namespace Makes

theorem pure (a : α) : Makes (pure a) (Tour.stay a) := fun s _ =>
  Prod.ext rfl (s.after_stay a).symm

theorem ofRun (action : Run α) : Makes (ofRun action) (Tour.look action) := fun s _ =>
  Prod.ext rfl (s.after_look action).symm

theorem bind {action : Surveying α} {next : α → Surveying β} {tour : World → Tour α}
    {more : α → World → Tour β} (h : Makes action tour) (hnext : ∀ a, Makes (next a) (more a)) :
    Makes (action >>= next) fun w => (tour w).andThen more := by
  intro s hs
  rw [Leaves.run_bind, h s hs]
  simp only
  cases hresult : (tour s.world).result with
  | error e => rw [Tour.andThen_of_error hresult]; rfl
  | ok a =>
    have hsome : (s.after (tour s.world)).model.types.isSome = true := by
      simp only [Survey.after, Option.isSome_map, hs]
    rw [Tour.andThen_of_ok hresult, s.after_append]
    exact hnext a _ hsome

theorem each {f : String → Surveying Unit} {visit : String → World → Tour Unit}
    (h : ∀ name, Makes (f name) (visit name)) (names : List String) :
    Makes (names.forM f) (Tour.each visit names) := by
  induction names with
  | nil => exact pure ()
  | cons name rest ih => exact (h name).bind fun _ => ih

end Makes

/-! ### Walks -/

/-- An exception that walking a package lets through. -/
def Escapes (e : Raised) : Prop := e.isA "ImportError" = false

/-- A part of a scan has to do with the world alone, of which it takes no class away, and raises
only what walking a package lets through. -/
def OnWorld (action : Surveying α) : Prop :=
  ∃ run : Run α, action = ofRun run ∧ Moves KeepsClasses run ∧ run.RaisesOnly Escapes

namespace OnWorld

theorem of_pure (a : α) : OnWorld (pure a : Surveying α) := ⟨pure a, rfl, .of_pure a, .of_pure a⟩

theorem of_throw {e : Raised} (h : Escapes e) : OnWorld (throw e : Surveying α) :=
  ⟨throw e, rfl, .of_throw e, .of_throw h⟩

theorem of_outcome {run : Run α} (h : Moves KeepsClasses run) : OnWorld (ofRun run.outcome) := by
  refine ⟨run.outcome, rfl, h.outcome, ?_⟩
  intro w e w' hraised
  rw [Run.run_outcome] at hraised
  cases hraised

theorem of_world : OnWorld world := ⟨Run.world, rfl, Run.moves_world, .of_world⟩

theorem bind {action : Surveying α} {next : α → Surveying β} (h : OnWorld action)
    (hnext : ∀ a, OnWorld (next a)) : OnWorld (action >>= next) := by
  obtain ⟨run, rfl, hmoves, hraises⟩ := h
  choose more hmore hmoves' hraises' using hnext
  refine ⟨run >>= more, ?_, hmoves.bind hmoves', hraises.bind hraises'⟩
  rw [funext hmore]
  funext s
  have hofRun : (ofRun run).run s =
      ((run.run s.world).1, { s with world := (run.run s.world).2 }) := rfl
  change (ofRun run >>= fun a => ofRun (more a)).run s =
    (((run >>= more).run s.world).1, { s with world := ((run >>= more).run s.world).2 })
  rw [Leaves.run_bind, Leaves.run_bind, hofRun]
  rcases run.run s.world with ⟨r, w⟩
  cases r <;> rfl

theorem flatMapUntil {f : α → Surveying (List β)} (h : ∀ a, OnWorld (f a)) (items : List α) :
    OnWorld (flatMapUntil f items) := by
  induction items with
  | nil => exact of_pure _
  | cons a rest ih => exact (h a).bind fun _ => ih.bind fun _ => of_pure _

end OnWorld

theorem onWorld_walk (depth : Nat) (package : String) : OnWorld (walk depth package) := by
  induction depth generalizing package with
  | zero => exact .of_pure _
  | succ depth ih =>
    refine OnWorld.of_world.bind fun w => .flatMapUntil (fun m => ?_) _
    obtain ⟨name, isPackage⟩ := m
    dsimp only
    split
    · refine (OnWorld.of_outcome (moves_importModule _)).bind fun r => ?_
      split
      next e =>
        split
        next => exact .of_pure _
        next h => exact (OnWorld.of_throw (Bool.eq_false_iff.mpr h)).bind fun _ => .of_pure _
      next => exact (ih _).bind fun _ => .of_pure _
    · exact .of_pure _

/-- Walking a package has to do with the world alone. -/
theorem walk_eq (depth : Nat) (package : String) :
    walk depth package = ofRun (Tour.walkFrom depth package) ∧
      Moves KeepsClasses (Tour.walkFrom depth package) ∧
      (Tour.walkFrom depth package).RaisesOnly Escapes := by
  obtain ⟨run, hwalk, hmoves⟩ := onWorld_walk depth package
  have hrun : Tour.walkFrom depth package = run := by
    funext w
    rw [Tour.walkFrom, hwalk]
    rfl
  rw [hrun]
  exact ⟨hwalk, hmoves⟩

/-! ### Scans -/

/-- Collecting the classes of a module adds those that have no namesake yet. -/
theorem run_collect (module : String) (s : Survey) :
    (collect module).run s =
      (.ok (), { s with model.types := some (gathered [⟨module, .ok (), s.world⟩] s.model.found) }) := by
  have hadd {step : Table String ClassId → ClassId → Table String ClassId}
      (hstep : ∀ types id, step types id = (s.world.class? id).elim types
        fun c => types.setMissing c.qualifiedName id) :
      (classesOf s.world module).foldl step s.model.found =
        gathered [⟨module, .ok (), s.world⟩] s.model.found := by
    rw [gathered, List.flatMap_singleton, Arrival.classes, List.foldl_filterMap]
    congr 1
    funext types id
    rw [hstep]
    cases s.world.class? id <;> rfl
  rw [← hadd fun types id => ?step]
  · rfl
  case step => cases s.world.class? id <;> rfl

theorem makes_importAndCollect (name : String) :
    Makes (importAndCollect name) (Tour.visit name) := by
  intro s hs
  obtain ⟨types, htypes⟩ := Option.isSome_iff_exists.mp hs
  obtain ⟨result, w, harrive⟩ : ∃ result w, Tour.arrive name s.world = ⟨name, result, w⟩ :=
    ⟨_, _, rfl⟩
  have himport : (ofRun (importModule name).outcome).run s =
      (.ok result, { s with world := w }) := by
    change ((((importModule name).outcome).run s.world).1,
      { s with world := (((importModule name).outcome).run s.world).2 }) = _
    rw [Run.run_outcome]
    injection harrive with _ hresult hw
    rw [hresult, hw]
  rw [importAndCollect, Leaves.run_bind, himport, Tour.visit, harrive]
  simp only
  cases result with
  | ok u =>
    -- A module that could be imported is collected, and there is nothing to report.
    have hreport : [⟨name, .ok u, w⟩].filterMap Arrival.report? = [] := rfl
    rw [Leaves.run_bind, run_collect]
    refine Prod.ext rfl ?_
    simp only [Survey.after, LiveModel.found, htypes, Option.getD_some, Option.map_some, hreport,
      Reports.errors, List.map_nil, List.append_nil]
    rfl
  | error e =>
    -- A module that could not be imported brings no classes, and is reported or ends the scan.
    have hnone : s.model.types.map (gathered [⟨name, .error e, w⟩]) = s.model.types :=
      Option.map_id'
    by_cases he : e.isA "Exception" = true
    · have hreport : [⟨name, .error e, w⟩].filterMap Arrival.report? =
          ["Could not import " ++ name ++ ": " ++ e.message] := by
        simp [Arrival.report?, he]
      simp only [he, if_true, Survey.after, hnone, hreport, Arrival.outcome]
      rfl
    · have hreport : [⟨name, .error e, w⟩].filterMap Arrival.report? = [] := by
        simp [Arrival.report?, he]
      simp only [he, Bool.false_eq_true, if_false, Survey.after, hnone, hreport, Arrival.outcome,
        Reports.errors, List.map_nil, List.append_nil]
      rfl

theorem Makes.of_world {f : World → Surveying α} {tour : World → World → Tour α}
    (h : ∀ w, Makes (f w) (tour w)) : Makes (world >>= f) fun w => tour w w :=
  fun s hs => h s.world s hs

theorem Makes.ite {p : Prop} [Decidable p] {action other : Surveying α}
    {tour tour' : World → Tour α} (h : Makes action tour) (h' : Makes other tour') :
    Makes (if p then action else other) fun w => if p then tour w else tour' w := by
  intro s hs
  split
  · exact h s hs
  · exact h' s hs

theorem makes_importAll (recursive : Bool) (name : String) :
    Makes (importAll recursive name) (Tour.visitAll recursive name) := by
  have hinside (w : World) : Makes (do
      let inner ← walk (w.files.nodes.length + 1) name
      inner.mergeSort.forM fun name => discard (importAndCollect name))
      fun w' => (Tour.look (Tour.walkFrom (w.files.nodes.length + 1) name) w').andThen fun names =>
        Tour.each (fun name w => (Tour.visit name w).andThen fun _ => Tour.stay ())
          names.mergeSort := by
    rw [(walk_eq _ name).1]
    refine (Makes.ofRun _).bind fun names => .each (fun name => ?_) _
    change Makes ((fun _ => ()) <$> importAndCollect name) _
    rw [map_eq_pure_bind]
    exact (makes_importAndCollect name).bind fun _ => .pure ()
  refine (makes_importAndCollect name).bind fun imported => ?_
  exact .ite (.of_world fun w => .ite (hinside w) (.pure ())) (.pure ())

/-- What a scan works on, with some directories in front of the search path. -/
def searching (s : Survey) (directories : List Path) : Survey :=
  { s with world.path := directories.filter (!s.world.path.contains ·) ++ s.world.path }

theorem run_searchingFirst (directories : List Path) (action : Surveying α) (s : Survey) :
    (searchingFirst directories action).run s =
      ((action.run (searching s directories)).1,
        { (action.run (searching s directories)).2 with world.path := s.world.path }) := rfl

end Surveying

/-! ### First scans -/

namespace LiveModel

/-- The tour that a model makes through its modules. -/
def tour (model : LiveModel) (w : World) : Tour Unit :=
  Tour.each (Tour.visitAll model.recursive) model.moduleNames
    { w with path := model.searchPath.filter (!w.path.contains ·) ++ w.path }

/-- The world after the tour, with the search path that it had before. -/
def worldAfter (model : LiveModel) (w : World) : World :=
  { (model.tour w).world with path := w.path }

/-- The model after the tour. -/
def imported (model : LiveModel) (w : World) : LiveModel :=
  { model with types := some (Table.firsts ((model.tour w).arrivals.flatMap Arrival.classes)) }

end LiveModel

/-- The session after a live model has made its tour. -/
def Session.toured (s : Session) (model : LiveModel) : Session where
  model := .live (model.imported s.world)
  world := model.worldAfter s.world
  reports := s.reports.errors ((model.tour s.world).arrivals.filterMap Arrival.report?)

/-- **A first scan is a tour** through the modules of the model. -/
theorem Query.run_scan_of_new {model : LiveModel} {s : Session} (hs : s.model = .live model)
    (htypes : model.types = none) :
    Query.scan.run s = ((model.tour s.world).result, s.toured model) := by
  have hmakes := Surveying.Makes.each (Surveying.makes_importAll model.recursive)
    model.moduleNames (Surveying.searching ⟨{ model with types := some [] }, s.world, s.reports⟩
      model.searchPath) rfl
  have hsurvey : Surveying.scan.run ⟨model, s.world, s.reports⟩ = ((model.tour s.world).result,
      ⟨model.imported s.world, model.worldAfter s.world,
        s.reports.errors ((model.tour s.world).arrivals.filterMap Arrival.report?)⟩) := by
    rw [Surveying.scan, Leaves.run_get_bind]
    simp only [htypes, Option.isNone_none, if_true]
    rw [Leaves.run_bind]
    change (Surveying.searchingFirst model.searchPath _).run
      ⟨{ model with types := some [] }, s.world, s.reports⟩ = _
    rw [Surveying.run_searchingFirst, hmakes]
    rfl
  rw [Query.scan, Leaves.run_get_bind, hs]
  change ((Surveying.scan.run ⟨model, s.world, s.reports⟩).1,
    (⟨.live (Surveying.scan.run ⟨model, s.world, s.reports⟩).2.model,
      (Surveying.scan.run ⟨model, s.world, s.reports⟩).2.world,
      (Surveying.scan.run ⟨model, s.world, s.reports⟩).2.reports⟩ : Session)) = _
  rw [hsurvey]
  rfl

/-! ## What tours keep -/

/-- Whatever is an `ImportError` is an `Exception`. -/
theorem isA_exception_of_importError {e : Raised} (h : e.isA "ImportError" = true) :
    e.isA "Exception" = true := by
  have hinitial : ∀ id < Classes.initial.size,
      (Classes.initial[id]?).any (·.qualifiedName == "builtins.ImportError") = true →
        Classes.initial.derivesFrom id "builtins.Exception" = true := by
    decide +kernel
  have hnamed : (⟨"ImportError", "", []⟩ : Raised).isA "Exception" = true := by decide +kernel
  rw [Raised.isA, Bool.or_eq_true, beq_iff_eq] at h
  rcases h with hkind | h
  · rw [Raised.isA, hkind]
    exact hnamed
  · rw [Raised.isA, Bool.or_eq_true]
    right
    cases hid : Classes.initial.find? ("builtins." ++ e.kind) with
    | none =>
      rw [hid] at h
      exact absurd h (by decide)
    | some id =>
      rw [hid] at h
      have hlt : id < Classes.initial.size := (Array.findIdx?_eq_some_iff_getElem.mp hid).1
      exact Classes.closed_initial.derivesFrom hinitial hlt h

namespace Tour

variable {α β : Type}

/-- A tour takes no class away, and only some exceptions end it early. One that does not end
early has caught all exceptions of the modules that it came to. -/
structure Sound (w : World) (t : Tour α) : Prop where
  keeps : KeepsClasses w t.world
  keepsAll : ∀ a ∈ t.arrivals, KeepsClasses a.world t.world
  raises : ∀ e, t.result = .error e → Surveying.Escapes e
  caught : ∀ a, t.result = .ok a → ∀ b ∈ t.arrivals, ∀ e, b.result = .error e →
    e.isA "Exception" = true

theorem sound_look {action : Run α} (h : Moves KeepsClasses action)
    (hraises : action.RaisesOnly Surveying.Escapes) (w : World) : (look action w).Sound w where
  keeps := h w
  keepsAll := List.forall_mem_nil _
  raises _ he := hraises (Prod.ext he rfl)
  caught _ _ := List.forall_mem_nil _

theorem sound_stay (a : α) (w : World) : (stay a w).Sound w :=
  sound_look (.of_pure a) (.of_pure a) w

theorem sound_visit (name : String) (w : World) : (visit name w).Sound w where
  keeps := moves_importModule name w
  keepsAll := List.forall_mem_singleton.mpr fun _ _ h => h
  raises e he := by
    change (arrive name w).outcome = .error e at he
    rw [Arrival.outcome] at he
    split at he
    next => cases he
    next e' _ =>
      split at he
      next => cases he
      next h =>
        cases he
        rw [Surveying.Escapes, ← Bool.not_eq_true]
        exact fun himport => h (isA_exception_of_importError himport)
  caught imported hok := by
    refine List.forall_mem_singleton.mpr fun e he => ?_
    change (arrive name w).outcome = .ok imported at hok
    rw [Arrival.outcome, he] at hok
    simp only at hok
    split at hok
    next h => exact h
    next => cases hok

theorem Sound.andThen {w : World} {t : Tour α} {next : α → World → Tour β} (h : t.Sound w)
    (hnext : ∀ a w, (next a w).Sound w) : (t.andThen next).Sound w := by
  cases hresult : t.result with
  | error e =>
    rw [andThen_of_error hresult]
    refine ⟨h.keeps, h.keepsAll, fun e' he' => ?_, fun b hb => nomatch hb⟩
    obtain rfl := Except.error.inj he'
    exact h.raises e hresult
  | ok a =>
    rw [andThen_of_ok hresult]
    have hmore := hnext a t.world
    refine ⟨trans_of _ h.keeps hmore.keeps, ?_, hmore.raises, fun b hb => ?_⟩
    · refine List.forall_mem_append.mpr ⟨fun a ha => ?_, hmore.keepsAll⟩
      exact trans_of _ (h.keepsAll a ha) hmore.keeps
    · exact List.forall_mem_append.mpr ⟨h.caught a hresult, hmore.caught b hb⟩

theorem sound_each {visit : String → World → Tour Unit} (h : ∀ name w, (visit name w).Sound w)
    (names : List String) (w : World) : (each visit names w).Sound w := by
  induction names generalizing w with
  | nil => exact sound_stay () w
  | cons name rest ih => exact (h name w).andThen fun _ w => ih w

theorem sound_visitAll (recursive : Bool) (name : String) (w : World) :
    (visitAll recursive name w).Sound w := by
  have hinside (w : World) : (inside name w).Sound w := by
    obtain ⟨-, hmoves, hraises⟩ := Surveying.walk_eq (w.files.nodes.length + 1) name
    refine (sound_look hmoves hraises w).andThen fun names w => sound_each (fun name w => ?_) _ w
    exact (sound_visit name w).andThen fun _ w => sound_stay () w
  refine (sound_visit name w).andThen fun imported w => ?_
  split
  · split
    · exact hinside w
    · exact sound_stay () w
  · exact sound_stay () w

end Tour

/-! ## What tours come to -/

namespace Tour

variable {α β : Type}

/-- Some arrivals are of a module and, if it could be imported and is a package that is walked,
of all modules that the walk names. -/
def CameTo (recursive : Bool) (name : String) (arrivals : List Arrival) : Prop :=
  ∃ a ∈ arrivals, a.module = name ∧
    (a.result = .ok () → recursive = true → a.world.isPackage name = true →
      ∃ names, ((walkFrom (a.world.files.nodes.length + 1) name).run a.world).1 = .ok names ∧
        ∀ inner ∈ names, ∃ b ∈ arrivals, b.module = inner)

theorem CameTo.mono {recursive : Bool} {name : String} {arrivals arrivals' : List Arrival}
    (h : CameTo recursive name arrivals) (hsub : arrivals ⊆ arrivals') :
    CameTo recursive name arrivals' := by
  obtain ⟨a, ha, hname, hinside⟩ := h
  refine ⟨a, hsub ha, hname, fun hok hrecursive hpackage => ?_⟩
  obtain ⟨names, hwalk, hnames⟩ := hinside hok hrecursive hpackage
  exact ⟨names, hwalk, fun inner hinner => (hnames inner hinner).imp fun _ hb => ⟨hsub hb.1, hb.2⟩⟩

theorem of_andThen_ok {t : Tour α} {next : α → World → Tour β} {b : β}
    (h : (t.andThen next).result = .ok b) : ∃ a, t.result = .ok a ∧
      (next a t.world).result = .ok b ∧
      (t.andThen next).arrivals = t.arrivals ++ (next a t.world).arrivals := by
  cases hresult : t.result with
  | error e =>
    rw [andThen_of_error hresult] at h
    cases h
  | ok a =>
    rw [andThen_of_ok hresult] at h ⊢
    exact ⟨a, rfl, h, rfl⟩

theorem subset_andThen (t : Tour α) (next : α → World → Tour β) :
    t.arrivals ⊆ (t.andThen next).arrivals := by
  cases hresult : t.result with
  | error e => rw [andThen_of_error hresult]; exact List.Subset.refl _
  | ok a => rw [andThen_of_ok hresult]; exact List.subset_append_left _ _

/-- Of several tours, each has been made if none has ended early. -/
theorem exists_of_each_ok {visit : String → World → Tour Unit} {names : List String} {w : World}
    (h : (each visit names w).result = .ok ()) {name : String} (hname : name ∈ names) :
    ∃ w', (visit name w').result = .ok () ∧
      (visit name w').arrivals ⊆ (each visit names w).arrivals := by
  induction names generalizing w with
  | nil => cases hname
  | cons head rest ih =>
    obtain ⟨u, hhead, hrest, harrivals⟩ := of_andThen_ok h
    have heach : (each visit (head :: rest) w).arrivals =
        (visit head w).arrivals ++ (each visit rest (visit head w).world).arrivals := harrivals
    rw [heach]
    rcases List.mem_cons.mp hname with rfl | hname
    · exact ⟨w, hhead, List.subset_append_left _ _⟩
    · obtain ⟨w', hok, hsub⟩ := ih hrest hname
      exact ⟨w', hok, List.subset_append_of_subset_right _ hsub⟩

theorem cameTo_visitAll {recursive : Bool} {name : String} {w : World}
    (h : (visitAll recursive name w).result = .ok ()) :
    CameTo recursive name (visitAll recursive name w).arrivals := by
  obtain ⟨imported, hvisit, hmore, harrivals⟩ := of_andThen_ok h
  have harrive : arrive name w ∈ (visitAll recursive name w).arrivals :=
    subset_andThen (visit name w) _ (List.mem_singleton_self _)
  refine ⟨arrive name w, harrive, rfl, fun hok hrecursive hpackage => ?_⟩
  have houtcome : (arrive name w).outcome = .ok imported := hvisit
  rw [Arrival.outcome, hok] at houtcome
  obtain rfl := Except.ok.inj houtcome
  have hwalked : (recursive && (visit name w).world.isPackage name) = true := by
    rw [hrecursive, Bool.true_and]
    exact hpackage
  simp only [hwalked, if_true] at hmore harrivals
  obtain ⟨names, hnames, heach, hinside⟩ := of_andThen_ok hmore
  refine ⟨names, hnames, fun inner hinner => ?_⟩
  obtain ⟨w', -, hsub⟩ := exists_of_each_ok heach (List.mem_mergeSort.mpr hinner)
  refine ⟨arrive inner w', ?_, rfl⟩
  rw [visitAll, harrivals, inside, hinside]
  refine List.mem_append_right _ (List.mem_append_right _ (hsub ?_))
  exact subset_andThen (visit inner w') _ (List.mem_singleton_self _)

end Tour

namespace LiveModel

variable {model : LiveModel} {w : World}

/-- A tour that does not end early comes to all modules. -/
theorem came_of_tour (h : (model.tour w).result = .ok ()) {name : String}
    (hname : name ∈ model.moduleNames) :
    Tour.CameTo model.recursive name (model.tour w).arrivals := by
  obtain ⟨w', hvisit, hsub⟩ := Tour.exists_of_each_ok h hname
  exact (Tour.cameTo_visitAll hvisit).mono hsub

theorem sound_tour (model : LiveModel) (w : World) : (model.tour w).Sound { w with
    path := model.searchPath.filter (!w.path.contains ·) ++ w.path } :=
  Tour.sound_each (Tour.sound_visitAll model.recursive) _ _

/-- **What a tour has found** are the first classes of the modules that could be imported, and a
model that has made no elements yet is ready to answer from them. -/
theorem ready_imported (helements : model.elements = []) (hcontracts : model.contracts = []) :
    (model.imported w).Ready (model.worldAfter w) where
  types := rfl
  wellFound := by
    refine ⟨Table.nodup_firsts _, fun entry hentry => ?_⟩
    obtain ⟨a, ha, hclass⟩ := List.mem_flatMap.mp (Table.mem_of_mem_firsts hentry)
    rw [Arrival.classes] at hclass
    split at hclass
    next =>
      obtain ⟨id, -, hid⟩ := List.mem_filterMap.mp hclass
      obtain ⟨c, hc, rfl⟩ := Option.map_eq_some_iff.mp hid
      exact ⟨c, (model.sound_tour w).keepsAll a ha id c hc, rfl⟩
    next => cases hclass
  made name e h := by
    rw [imported, helements] at h
    cases h
  marks name target h := by
    rw [imported, hcontracts] at h
    cases h

end LiveModel

/-! ## First questions -/

section

variable {model : LiveModel} {s : Session} (hs : s.model = .live model)
  (htypes : model.types = none) (helements : model.elements = []) (hcontracts : model.contracts = [])

include hs htypes helements hcontracts

/-- A first question raises what has ended the tour early, or is answered from what the tour has
found. -/
theorem exists_run_ask_of_new (q : Question) : ∃ s',
    q.ask.run s = ((model.tour s.world).result.map fun _ =>
      q.answer (model.imported s.world) (model.worldAfter s.world), s') ∧
    (s.toured model).Makes (model.imported s.world) s' := by
  have hscan := Query.run_scan_of_new hs htypes
  have hready := LiveModel.ready_imported (w := s.world) helements hcontracts
  cases hresult : (model.tour s.world).result with
  | error e =>
    rw [hresult] at hscan
    exact ⟨_, run_ask_of_scan_error hs hscan q, .refl rfl hready⟩
  | ok u =>
    rw [hresult] at hscan
    rw [run_ask_of_scan hs hscan rfl hready.types]
    exact exists_run_ask rfl hready q

/-- Questions to a new model do nothing but make its tour, and elements of what it has found. -/
theorem makes_after_of_new {asked : List Question} (hasked : asked ≠ []) :
    (s.toured model).Makes (model.imported s.world) (s.after asked) := by
  obtain ⟨first, rest, rfl⟩ := List.exists_cons_of_ne_nil hasked
  obtain ⟨s₁, hrun, model₁, rfl, hmodel₁⟩ := exists_run_ask_of_new hs htypes helements hcontracts first
  obtain ⟨model', hafter, hmodel'⟩ := makes_after
    (s := { s.toured model with model := .live model₁ }) rfl hmodel₁.ready rest
  refine ⟨model', ?_, hmodel₁.trans hmodel'⟩
  rw [Session.after, List.foldl_cons, hrun]
  exact hafter

end

end Symbols

end ProviderRegistry
