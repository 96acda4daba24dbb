import ProviderRegistry.Proofs.Frames
import ProviderRegistry.Resolution

/-!
# What questions to a symbol model leave alone

A question may scan sources, import modules and report, but it changes no file: neither
when a model looks at sources nor when it imports modules.
-/

namespace ProviderRegistry

namespace Symbols

open World

/-! ## Scans of live classes -/

namespace Surveying

variable {α β φ : Type}

/-- A part of what a scan works on that it does not touch: neither importing changes it, nor
noting the classes that are found, nor reporting, nor searching elsewhere for a while. -/
structure Untouched (part : Survey → φ) : Prop where
  importing : ∀ name, Leaves part (ofRun (World.importModule name).outcome)
  types : ∀ s types, part { s with model := { s.model with types } } = part s
  reports : ∀ s reports, part { s with reports } = part s
  path : ∀ s path, part { s with world := { s.world with path } } = part s

theorem leaves_flatMapUntil {part : Survey → φ} {f : α → Surveying (List β)}
    (h : ∀ a, Leaves part (f a)) (items : List α) : Leaves part (flatMapUntil f items) := by
  induction items with
  | nil => exact .of_pure _
  | cons a rest ih => exact (h a).bind fun _ => ih.bind fun _ => .of_pure _

namespace Untouched

variable {part : Survey → φ} (h : Untouched part)

include h

theorem leaves_collect (module : String) : Leaves part (collect module) := by
  have hworld : Leaves part world := Moves.of_get.bind fun _ => .of_pure _
  refine hworld.bind fun w => Moves.of_get.bind fun s => ?_
  exact .of_modify fun s => h.types s _

theorem leaves_importAndCollect (name : String) : Leaves part (importAndCollect name) := by
  refine (h.importing name).bind fun r => ?_
  split
  · exact (h.leaves_collect name).bind fun _ => .of_pure _
  · have hreport (e : Raised) : Leaves part (do
        modify fun s => { s with
          reports := s.reports.error ("Could not import " ++ name ++ ": " ++ e.message) }
        return false : Surveying Bool) :=
      Moves.bind (.of_modify fun s => h.reports s _) fun _ => .of_pure _
    exact .ite (hreport _) (Moves.bind (.of_throw _) fun _ => hreport _)

theorem leaves_walk (depth : Nat) (package : String) : Leaves part (walk depth package) := by
  have hworld : Leaves part world := Moves.of_get.bind fun _ => .of_pure _
  induction depth generalizing package with
  | zero => exact .of_pure _
  | succ depth ih =>
    refine hworld.bind fun w => leaves_flatMapUntil (fun m => ?_) _
    obtain ⟨name, isPackage⟩ := m
    dsimp only
    split
    · refine (h.importing _).bind fun r => ?_
      split
      · exact .ite (.of_pure _) (Moves.bind (.of_throw _) fun _ => .of_pure _)
      · exact (ih _).bind fun _ => .of_pure _
    · exact .of_pure _

theorem leaves_importAll (recursive : Bool) (name : String) :
    Leaves part (importAll recursive name) := by
  have hworld : Leaves part world := Moves.of_get.bind fun _ => .of_pure _
  refine (h.leaves_importAndCollect name).bind fun imported => .ite ?_ (.of_pure _)
  refine hworld.bind fun w => .ite ?_ (.of_pure _)
  refine (h.leaves_walk _ name).bind fun inner => .forM (fun name => ?_) _
  exact (h.leaves_importAndCollect name).map _

theorem leaves_searchingFirst (directories : List Path) {action : Surveying α}
    (haction : Leaves part action) : Leaves part (searchingFirst directories action) := by
  intro s
  exact (h.path _ _).trans ((haction _).trans (h.path _ _))

/-- **A scan** leaves alone what it does not touch. -/
theorem leaves_scan : Leaves part scan := by
  refine Moves.of_get.bind fun s => ?_
  refine .ite (Moves.bind (.of_modify fun s => h.types s _) fun _ => ?_) (.of_pure _)
  exact h.leaves_searchingFirst _ (.forM (h.leaves_importAll _) _)

end Untouched

/-- Importing changes no file. -/
theorem untouched_files : Untouched fun s : Survey => s.world.files where
  importing name s := (World.moves_importModule
    (R := fun w w' => w'.files = w.files) name).outcome s.world
  types _ _ := rfl
  reports _ _ := rfl
  path _ _ := rfl

end Surveying

/-! ## Questions -/

namespace Query

/-- A question that leaves the files as they are. -/
abbrev KeepsFiles {α : Type} (query : Query α) : Prop :=
  Leaves (fun s : Session => s.world.files) query

theorem keepsFiles_scan : KeepsFiles scan := by
  refine Moves.of_get.bind fun s => ?_
  split
  · exact fun _ => rfl
  · exact fun s => Surveying.untouched_files.leaves_scan _

theorem keepsFiles_elements : KeepsFiles elements := by
  refine keepsFiles_scan.bind fun _ => Moves.of_get.bind fun s => ?_
  split
  · exact .of_pure _
  · exact Moves.bind (.of_modify fun _ => rfl) fun _ => .of_pure _

theorem keepsFiles_element? (name : String) : KeepsFiles (element? name) := by
  refine keepsFiles_scan.bind fun _ => Moves.of_get.bind fun s => ?_
  split
  · exact .of_pure _
  · split
    · exact .of_pure _
    · exact Moves.bind (.of_modify fun _ => rfl) fun _ => .of_pure _

theorem keepsFiles_reference (name : String) : KeepsFiles (reference name) :=
  (keepsFiles_element? name).bind fun _ => .of_pure _

theorem keepsFiles_annotated (markers : List String) : KeepsFiles (annotated markers) :=
  keepsFiles_elements.bind fun _ => .of_pure _

theorem keepsFiles_lookThrough (target : String) (names seen : List String)
    (queue : List Element) : KeepsFiles (lookThrough element? target names seen queue) := by
  induction names generalizing seen queue with
  | nil => exact .of_pure _
  | cons name rest ih =>
    refine .ite (.of_pure _) (.ite (ih _ _) ?_)
    exact (keepsFiles_element? name).bind fun _ => ih _ _

theorem keepsFiles_walkUp (target : String) (steps : Nat) (queue : List Element)
    (seen : List String) : KeepsFiles (walkUp element? target steps queue seen) := by
  induction steps generalizing queue seen with
  | zero => exact .of_pure _
  | succ steps ih =>
    cases queue with
    | nil => exact .of_pure _
    | cons current queue =>
      refine .ite (.of_pure _) ?_
      refine (keepsFiles_lookThrough target _ _ _).bind fun look => ?_
      split
      · exact .of_pure _
      · exact ih _ _

theorem keepsFiles_inherits (element contract : Element) :
    KeepsFiles (inherits element contract) :=
  Moves.of_get.bind fun _ => keepsFiles_walkUp _ _ _ _

theorem keepsFiles_isAssignable (element contract : Element) :
    KeepsFiles (isAssignable element contract) := by
  refine Moves.of_get.bind fun s => ?_
  split
  · exact keepsFiles_inherits _ _
  · refine keepsFiles_scan.bind fun _ => Moves.of_get.bind fun s => ?_
    split
    · exact keepsFiles_inherits _ _
    · extract_lets target
      split
      · exact .of_pure _
      · exact keepsFiles_inherits _ _

end Query

end Symbols

/-! ## Resolution -/

namespace Resolution

open Symbols

theorem keepsFiles_contractOf (markers : List String) (element : Element) :
    Query.KeepsFiles (contractOf markers element) := by
  unfold contractOf
  split
  · exact (Query.keepsFiles_reference _).bind fun _ => .of_pure _
  · exact (Query.keepsFiles_element? _).bind fun _ => .of_pure _
  · exact .of_pure _

theorem keepsFiles_reject (element : Element) (message : String) :
    Query.KeepsFiles (reject element message) :=
  Moves.bind (.of_modify fun _ => rfl) fun _ => .of_pure _

theorem keepsFiles_bindingOf (markers : List String) (element : Element) :
    Query.KeepsFiles (bindingOf markers element) := by
  refine (keepsFiles_contractOf markers element).bind fun contract => ?_
  refine .ite (keepsFiles_reject _ _) ?_
  split
  · exact keepsFiles_reject _ _
  · refine (Query.keepsFiles_isAssignable _ _).bind fun assignable => ?_
    exact .ite (.of_pure _) (keepsFiles_reject _ _)

/-- Resolving the marked classes changes no file. -/
theorem keepsFiles_bindingsOf (markers : List String) (elements : List Element) :
    Query.KeepsFiles (bindingsOf markers elements) :=
  Moves.bind (.mapM (keepsFiles_bindingOf markers) elements) fun _ => .of_pure _

end Resolution

end ProviderRegistry
