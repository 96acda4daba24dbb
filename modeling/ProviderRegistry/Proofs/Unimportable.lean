import ProviderRegistry.Proofs.Agreeing
import ProviderRegistry.Proofs.Arrivals

/-!
# Modules that cannot be imported

What a live model answers when some of its modules cannot be imported (`answers_of_new`). While
each exception is caught where its module is imported, the module is reported, and every question
is answered from the classes of all others. An exception of a package that is imported while the
package around it is walked is only caught if it is an `ImportError`: any other one is raised by
the first question, and all later questions are answered from the classes that had been found by
then (`package_ends_scan`).
-/

namespace ProviderRegistry

open World

namespace Symbols

/-- What a session answers whose model makes a tour on the first question: `first` is what comes
of the first question, and `later` what comes of any question after others. -/
structure Session.AnswersFrom (s : Session) (model : LiveModel) (t : Tour Unit) : Prop where
  /-- The first question raises what has ended the tour early, or is answered from what was
  found. -/
  first : ∀ q : Question, (q.ask.run s).1 =
    t.result.map fun _ => q.answer (model.imported s.world) (model.worldAfter s.world)
  /-- Later questions raise nothing. They are answered from what was found, and report and import
  nothing more. -/
  later : ∀ (q : Question) (asked : List Question), asked ≠ [] → ∃ model' s',
    s.after asked = { s.toured model with model := .live model' } ∧
    LiveModel.Makes (model.worldAfter s.world) (model.imported s.world) model' ∧
    q.ask.run (s.after asked) = (.ok (q.answer model' (model.worldAfter s.world)), s') ∧
    (s.toured model).Makes (model.imported s.world) s'
  /-- What was found are the classes of the modules that could be imported. -/
  found : ∀ name, (model.imported s.world).found.lookup name =
    (t.arrivals.flatMap Arrival.classes).lookup name
  /-- A tour that does not end early comes to all modules. -/
  came : t.result = .ok () → ∀ name ∈ model.moduleNames,
    Tour.CameTo model.recursive name t.arrivals
  /-- A tour that does not end early reports all modules that could not be imported. -/
  reported : t.result = .ok () → ∀ a ∈ t.arrivals, ∀ e, a.result = .error e →
    "Could not import " ++ a.module ++ ": " ++ e.message ∈ t.arrivals.filterMap Arrival.report?
  /-- What ends a tour early does not say that something could not be imported. -/
  ended : ∀ e, t.result = .error e → e.isA "ImportError" = false

/-- **A live model with modules that cannot be imported** raises what ends its scan early once,
and answers from the modules that its scan could import. -/
theorem answers_of_new {model : LiveModel} {s : Session} (hs : s.model = .live model)
    (htypes : model.types = none) (helements : model.elements = [])
    (hcontracts : model.contracts = []) : s.AnswersFrom model (model.tour s.world) := by
  have hsound := model.sound_tour s.world
  refine ⟨fun q => ?_, fun q asked hasked => ?_, fun name => Table.lookup_firsts _ name,
    fun hok name hname => LiveModel.came_of_tour hok hname, fun hok a ha e he => ?_, hsound.raises⟩
  · obtain ⟨s', hrun, -⟩ := exists_run_ask_of_new hs htypes helements hcontracts q
    rw [hrun]
  · obtain ⟨model', hafter, hmodel'⟩ := makes_after_of_new hs htypes helements hcontracts hasked
    obtain ⟨s', hrun, next, rfl, hnext⟩ := exists_run_ask
      (s := { s.toured model with model := .live model' }) rfl hmodel'.ready q
    rw [hafter]
    exact ⟨model', _, rfl, hmodel', hrun, next, rfl, hmodel'.trans hnext⟩
  · refine List.mem_filterMap.mpr ⟨a, ha, ?_⟩
    rw [Arrival.report?, he]
    exact if_pos (hsound.caught () hok a ha e he)

end Symbols

/-! ### Two worlds -/

/-- A world with some modules, each in a file of its own. -/
def modulesWorld (directories : List (List String))
    (modules : List (List String × List Statement)) : World :=
  let bytes (body : List Statement) := Text.utf8Bytes (programText body).toList
  { World.new ⟨[], directories.map (·, .directory) ++
      modules.map fun (path, body) => (path, .file (bytes body))⟩ with
    programs := modules.map fun (_, body) => (bytes body, body) }

namespace Symbols

/-- A live model of some modules below `src`. -/
def modulesModel (names : List String) : LiveModel where
  moduleNames := names
  searchPath := [⟨.none, ["src"]⟩]

/-- A session that has been asked nothing yet about some modules below `src`. -/
def modulesSession (names : List String) (w : World) : Session := ⟨.live (modulesModel names), w, {}⟩

/-- A module that raises an exception, and another one. -/
def brokenModule : World :=
  modulesWorld [["src"]] [
    (["src", "p.py"], [.raises "RuntimeError" "no"]),
    (["src", "q.py"], [.declare { name := "B" }])]

/-- The module is reported, and the class of the other one is found. -/
theorem answers_broken_module :
    let model := modulesModel ["p", "q"]
    let t := model.tour brokenModule
    (modulesSession ["p", "q"] brokenModule).AnswersFrom model t ∧ t.result = .ok () ∧
      t.arrivals.filterMap Arrival.report? = ["Could not import p: no"] ∧
      (t.arrivals.flatMap Arrival.classes).map (·.1) = ["q.B"] := by
  refine ⟨answers_of_new rfl rfl rfl rfl, ?_⟩
  simp only [brokenModule, modulesWorld, toList_programText, List.map_cons, List.map_nil]
  decide +kernel

/-- A package inside another one that raises an exception, and another module. -/
def brokenPackage : World :=
  modulesWorld [["src"], ["src", "p"], ["src", "p", "s"]] [
    (["src", "p", "s", "__init__.py"], [.raises "RuntimeError" "no"]),
    (["src", "q.py"], [.declare { name := "B" }])]

/-- The package ends the scan: the first question raises its exception, and later ones find
nothing and report nothing, although the other module can be imported. -/
theorem package_ends_scan :
    let s := modulesSession ["p", "q"] brokenPackage
    let s' := s.after [.elements]
    let names (s : Session) := (Query.elements.run s).1.map (·.map (·.qualifiedName))
    names s = .error ⟨"RuntimeError", "no", []⟩ ∧ names s' = .ok [] ∧
      (s'.after [.elements]).reports.diagnostics.map (·.message) = [] ∧
      names (modulesSession ["q"] brokenPackage) = .ok ["q.B"] := by
  simp only [modulesSession, brokenPackage, modulesWorld, toList_programText, List.map_cons,
    List.map_nil]
  decide +kernel

end Symbols

end ProviderRegistry
