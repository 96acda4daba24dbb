import Mathlib.Data.List.TakeWhile
import ProviderRegistry.Proofs.Merging

/-!
# Work on an aggregate

Providers are added to an aggregate, registry files are merged into it and written from it, in
any order and any number of times, and the files may change in between. An aggregate only grows:
its contracts stand in the order in which they were first added, each once; a step extends an
entry at its end, by what it offers for the contract and the entry lacks; and the factory of a
contract is asked for if the first provider that was ever added for it asked
(`Aggregation.grows_after`).

Merging offers the lines of a registry file for every contract that it comes to. These are all
contracts, unless a name makes a path that no system accepts, or there is no such encoding: then
merging ends, and the contracts that come later get nothing from their files
(`merging_stopped`).
-/

namespace ProviderRegistry.Registry

/-- A step of the work on an aggregate. -/
inductive Step where
  /-- A provider is added. -/
  | add (binding : Binding)
  /-- The registry files are merged into the entries. -/
  | merge (output : Output)
  /-- The entries are written to the registry files. -/
  | write (output : Output)
  /-- Others leave different files. -/
  | change (tree : FileTree)

/-- The provider that a step adds. -/
def Step.binding? : Step → Option Binding
  | add b => some b
  | _ => none

/-- An aggregate, with the files and the reports of those who work with it. -/
structure Aggregation where
  aggregate : Aggregate := {}
  tree : FileTree
  reports : Reports := {}

/-- Whether merging ends at a contract: what its registry file is asked for fails, and not because
of the file. -/
def endsMerging (output : Output) (tree : FileTree) (contractName : String) : Bool :=
  (unreadable? output tree contractName).any fun e => !e.isUnreadable

/-- The contracts that merging comes to before it ends. -/
def comesTo (output : Output) (tree : FileTree) (contractNames : List String) : List String :=
  contractNames.takeWhile fun contractName => !endsMerging output tree contractName

/-- The lines that merging adds to the entry of a contract. -/
def mergedLines (output : Output) (tree : FileTree) (contractNames : List String)
    (contractName : String) : List String :=
  if contractName ∈ comesTo output tree contractNames then existingLines output tree contractName
  else []

namespace Aggregation

/-- The names of the contracts, in order. -/
def contractNames (w : Aggregation) : List String := w.aggregate.entries.map (·.contractName)

/-- What a step leaves, whether or not it ends well. -/
def take (w : Aggregation) : Step → Aggregation
  | .add b => { w with aggregate := (w.aggregate.add b).1 }
  | .merge output =>
    let merged := w.aggregate.mergeFiles output w.tree w.reports
    { w with aggregate := merged.1, reports := merged.2.1 }
  | .write output =>
    let written := writeEntries output w.aggregate.entries w.tree w.reports
    { w with tree := written.1, reports := written.2.1 }
  | .change tree => { w with tree }

/-- What a step offers for a contract: adding, the name of the provider; merging, the lines of the
registry file, if it comes to the contract. -/
def offered (w : Aggregation) (step : Step) (contractName : String) : List String :=
  match step with
  | .add b => if b.key = contractName then [b.name] else []
  | .merge output => mergedLines output w.tree w.contractNames contractName
  | .write _ | .change _ => []

/-- The entry that a step opens. -/
def opened? (w : Aggregation) : Step → Option Entry
  | .add b => if b.key ∈ w.contractNames then none else some ⟨b.key, [b.name]⟩
  | _ => none

/-- What is there after some steps. -/
def after (w : Aggregation) (steps : List Step) : Aggregation := steps.foldl take w

/-- All that some steps offer for a contract, in order. -/
def given (w : Aggregation) : List Step → String → List String
  | [], _ => []
  | step :: rest, contractName =>
    w.offered step contractName ++ (w.take step).given rest contractName

variable {w : Aggregation} {step : Step} {steps : List Step}

theorem after_concat (w : Aggregation) (steps : List Step) (step : Step) :
    w.after (steps ++ [step]) = (w.after steps).take step :=
  List.foldl_concat ..

theorem given_concat (w : Aggregation) (steps : List Step) (step : Step) (contractName : String) :
    w.given (steps ++ [step]) contractName =
      w.given steps contractName ++ (w.after steps).offered step contractName := by
  induction steps generalizing w with
  | nil => rw [List.nil_append, given, given, given, List.append_nil, List.nil_append, after,
      List.foldl_nil]
  | cons first rest ih =>
    rw [List.cons_append, given, ih, given, List.append_assoc, after, after, List.foldl_cons]

end Aggregation

/-! ## Merging -/

section

variable {output : Output} {tree : FileTree} {first contractName : String} {rest : List String}

theorem comesTo_cons : comesTo output tree (first :: rest) =
    if endsMerging output tree first then [] else first :: comesTo output tree rest := by
  rw [comesTo, List.takeWhile_cons]
  cases endsMerging output tree first <;> rfl

theorem mergedLines_of_ends (h : endsMerging output tree first = true) :
    mergedLines output tree (first :: rest) contractName = [] := by
  rw [mergedLines, comesTo_cons, if_pos h, if_neg List.not_mem_nil]

theorem mergedLines_self (h : endsMerging output tree first = false) :
    mergedLines output tree (first :: rest) first = existingLines output tree first := by
  simp only [mergedLines, comesTo_cons, h, Bool.false_eq_true, if_false, List.mem_cons_self,
    if_true]

theorem mergedLines_of_ne (h : endsMerging output tree first = false)
    (hne : contractName ≠ first) :
    mergedLines output tree (first :: rest) contractName =
      mergedLines output tree rest contractName := by
  simp only [mergedLines, comesTo_cons, h, Bool.false_eq_true, if_false, List.mem_cons, hne,
    false_or]

end

namespace Aggregate

variable {output : Output} {tree : FileTree}

/-- A group whose contract ends the merging. -/
theorem mergeGroup_of_ends {g : Group} (h : endsMerging output tree g.entry.contractName = true) :
    ∃ e, mergeGroup output tree g = (g, .error e) := by
  obtain ⟨e, he, hfault⟩ := (Option.any_eq_true _ _).mp h
  rw [Bool.not_eq_true'] at hfault
  have hfst := mergeGroup_fst output tree g
  have hsnd := mergeGroup_snd output tree g
  rw [existingLines_of_unreadable he] at hfst
  simp only [he, hfault, Bool.false_eq_true, if_false] at hsnd
  exact ⟨e, Prod.ext hfst hsnd⟩

/-- A group whose contract does not. -/
theorem mergeGroup_of_not_ends {g : Group}
    (h : endsMerging output tree g.entry.contractName = false) :
    ∃ report, mergeGroup output tree g =
      ({ g with entry := g.entry.merge (existingLines output tree g.entry.contractName) },
        .ok report) := by
  have hfst := mergeGroup_fst output tree g
  have hsnd := mergeGroup_snd output tree g
  cases hunreadable : unreadable? output tree g.entry.contractName with
  | none =>
    simp only [hunreadable] at hsnd
    exact ⟨none, Prod.ext hfst hsnd⟩
  | some e =>
    rw [endsMerging, hunreadable, Option.any_some, Bool.not_eq_false'] at h
    simp only [hunreadable, if_pos h] at hsnd
    exact ⟨_, Prod.ext hfst hsnd⟩

/-- **What merging adds**: to each group the lines of its registry file, up to the contract at
which merging ends. -/
theorem mergeGroups_fst (output : Output) (tree : FileTree) {groups : List Group}
    (hnodup : (groups.map (·.entry.contractName)).Nodup) (reports : Reports) :
    (mergeGroups output tree groups reports).1 = groups.map fun g =>
      let lines := mergedLines output tree (groups.map (·.entry.contractName)) g.entry.contractName
      { g with entry := g.entry.merge lines } := by
  induction groups generalizing reports with
  | nil => rfl
  | cons g rest ih =>
    rw [List.map_cons, List.nodup_cons] at hnodup
    rw [List.map_cons, List.map_cons]
    cases hends : endsMerging output tree g.entry.contractName with
    | true =>
      obtain ⟨e, hg⟩ := mergeGroup_of_ends hends
      simp only [mergeGroups_cons_error hg, mergedLines_of_ends hends]
      exact congrArg (g :: ·) (List.map_id' rest).symm
    | false =>
      obtain ⟨report, hg⟩ := mergeGroup_of_not_ends hends
      rw [mergeGroups_cons_ok hg, ih hnodup.2]
      simp only [mergedLines_self hends]
      refine congrArg _ (List.map_congr_left fun other hother => ?_)
      -- The first contract is none of the others.
      have hne : other.entry.contractName ≠ g.entry.contractName := by
        intro heq
        exact hnodup.1 (heq ▸ List.mem_map_of_mem hother)
      simp only [mergedLines_of_ne hends hne]

/-- Merging ends well just if no contract ends it before. -/
theorem mergeGroups_eq_ok (output : Output) (tree : FileTree) (groups : List Group)
    (reports : Reports) :
    (mergeGroups output tree groups reports).2.2 = .ok () ↔
      ∀ g ∈ groups, endsMerging output tree g.entry.contractName = false := by
  induction groups generalizing reports with
  | nil => simp [mergeGroups]
  | cons g rest ih =>
    rw [List.forall_mem_cons]
    cases hends : endsMerging output tree g.entry.contractName with
    | true =>
      obtain ⟨e, hg⟩ := mergeGroup_of_ends hends
      rw [mergeGroups_cons_error hg]
      simp
    | false =>
      obtain ⟨report, hg⟩ := mergeGroup_of_not_ends hends
      rw [mergeGroups_cons_ok hg, ih]
      simp

end Aggregate

namespace Aggregation

/-- **Merging comes to every contract just if it ends well.** -/
theorem merge_eq_ok_iff (w : Aggregation) (output : Output) :
    (w.aggregate.mergeFiles output w.tree w.reports).2.2 = .ok () ↔
      comesTo output w.tree w.contractNames = w.contractNames := by
  have hok := Aggregate.mergeGroups_eq_ok output w.tree w.aggregate.groups w.reports
  rw [comesTo, List.takeWhile_eq_self_iff, contractNames, Aggregate.entries, List.map_map]
  simpa [Aggregate.mergeFiles] using hok

/-! ## Steps -/

/-- What the contracts of some bindings have been given so far, and nothing else. -/
structure Holds (w : Aggregation) (bindings : List Binding) (given : String → List String) :
    Prop where
  groups : w.aggregate.groups = (firsts bindings).map (groupGiven given)
  unmet : ∀ contractName, contractName ∉ bindings.map (·.key) → given contractName = []

variable {w : Aggregation} {step : Step} {bindings : List Binding}
  {given : String → List String}

theorem Holds.contractNames (h : w.Holds bindings given) :
    w.contractNames = (firsts bindings).map (·.key) := by
  rw [Aggregation.contractNames, Aggregate.entries, h.groups, List.map_map, List.map_map]
  rfl

theorem Holds.mem_contractNames (h : w.Holds bindings given) {contractName : String} :
    contractName ∈ w.contractNames ↔ contractName ∈ bindings.map (·.key) := by
  rw [h.contractNames, mem_firsts_key]

/-- A step offers something for contracts that have been met, or that it adds. -/
theorem offered_of_unmet {contractName : String} (h : contractName ∉ w.contractNames)
    (hstep : contractName ∉ step.binding?.toList.map (·.key)) :
    w.offered step contractName = [] := by
  cases step with
  | add b => exact if_neg fun hkey => hstep (List.mem_singleton.mpr hkey.symm)
  | merge output =>
    refine if_neg fun hmem => h ?_
    exact (List.takeWhile_prefix _).subset hmem
  | write output => rfl
  | change tree => rfl

/-- **What a step does to an aggregate**: it gives the contracts what it offers. -/
theorem Holds.take (h : w.Holds bindings given) (step : Step) :
    (w.take step).Holds (bindings ++ step.binding?.toList) fun contractName =>
      given contractName ++ w.offered step contractName where
  groups := by
    cases step with
    | add b => exact Aggregate.add_groups h.groups (h.unmet b.key) fun _ => rfl
    | merge output =>
      have hnames : w.aggregate.groups.map (·.entry.contractName) = w.contractNames := by
        rw [Aggregation.contractNames, Aggregate.entries, List.map_map]
        rfl
      have hnodup : (w.aggregate.groups.map (·.entry.contractName)).Nodup := by
        rw [hnames, h.contractNames]
        exact firsts_nodup bindings
      have hmerged := Aggregate.mergeGroups_fst output w.tree hnodup w.reports
      rw [hnames, h.groups, List.map_map] at hmerged
      show (Aggregate.mergeGroups output w.tree w.aggregate.groups w.reports).1 = _
      rw [h.groups, hmerged]
      simp only [Step.binding?, Option.toList_none, List.append_nil]
      refine List.map_congr_left fun first _ => ?_
      simp only [Function.comp_apply, groupGiven, Entry.merge_mk, offered]
    | write output =>
      simp only [Aggregation.take, Step.binding?, Option.toList_none, offered, List.append_nil]
      exact h.groups
    | change tree =>
      simp only [Aggregation.take, Step.binding?, Option.toList_none, offered, List.append_nil]
      exact h.groups
  unmet := by
    intro contractName hunmet
    rw [List.map_append, List.mem_append, not_or] at hunmet
    rw [h.unmet _ hunmet.1, offered_of_unmet (h.mem_contractNames.not.mpr hunmet.1) hunmet.2,
      List.append_nil]

/-- What an aggregate holds after any steps. -/
theorem holds_after (hempty : w.aggregate = {}) (steps : List Step) :
    (w.after steps).Holds (steps.filterMap Step.binding?) (w.given steps) := by
  induction steps using List.reverseRecOn with
  | nil => exact ⟨congrArg Aggregate.groups hempty, fun _ _ => rfl⟩
  | append_singleton steps step ih =>
    have hgiven : w.given (steps ++ [step]) = fun contractName =>
        w.given steps contractName ++ (w.after steps).offered step contractName :=
      funext fun contractName => w.given_concat steps step contractName
    have hbindings : (steps ++ [step]).filterMap Step.binding? =
        steps.filterMap Step.binding? ++ step.binding?.toList := by
      rw [List.filterMap_append, List.filterMap_cons, List.filterMap_nil]
      cases step.binding? <;> rfl
    rw [after_concat, hgiven, hbindings]
    exact ih.take step

/-! ## Entries -/

theorem Holds.entries (h : w.Holds bindings given) : w.aggregate.entries =
    (firsts bindings).map fun first => ⟨first.key, (given first.key).eraseDups⟩ := by
  rw [Aggregate.entries, h.groups, List.map_map]
  rfl

theorem Holds.requests (h : w.Holds bindings given) : w.aggregate.requests =
    ((firsts bindings).filter (·.generateFactory)).map (·.contract) := by
  rw [Aggregate.requests, h.groups, List.filter_map, List.map_map]
  rfl

/-- The entries after a step. -/
theorem Holds.entries_take (h : w.Holds bindings given) (step : Step) :
    (w.take step).aggregate.entries =
      (w.aggregate.entries.map fun e => { e with
        implementations := e.implementations ++
          ((w.offered step e.contractName).removeAll e.implementations).eraseDups }) ++
      (w.opened? step).toList := by
  have hold : w.aggregate.entries.map (fun e => { e with
        implementations := e.implementations ++
          ((w.offered step e.contractName).removeAll e.implementations).eraseDups }) =
      (firsts bindings).map fun first =>
        ⟨first.key, (given first.key ++ w.offered step first.key).eraseDups⟩ := by
    rw [h.entries, List.map_map]
    refine List.map_congr_left fun first _ => ?_
    simp only [Function.comp_apply, List.eraseDups_append,
      removeAll_congr fun _ => List.mem_eraseDups]
  rw [(h.take step).entries, hold]
  cases step with
  | add b =>
    rw [Step.binding?, Option.toList_some, firsts_concat, opened?]
    by_cases hb : b.key ∈ bindings.map (·.key)
    · rw [if_pos hb, if_pos (h.mem_contractNames.mpr hb), Option.toList_none, List.append_nil]
    · rw [if_neg hb, if_neg (h.mem_contractNames.not.mpr hb), List.map_append, List.map_singleton,
        h.unmet _ hb, offered, if_pos rfl]
      rfl
  | _ => simp only [Step.binding?, opened?, Option.toList_none, List.append_nil]

/-- **An aggregate only grows**, in whatever order providers are added to it, registry files are
merged into it and written from it, and whatever the files hold. -/
theorem grows_after (tree : FileTree) (reports : Reports) (steps : List Step) :
    let w := after { tree, reports } steps
    let bindings := steps.filterMap Step.binding?
    w.contractNames = (firsts bindings).map (·.key) ∧ w.contractNames.Nodup ∧
    (∀ e ∈ w.aggregate.entries, e.implementations.Nodup) ∧
    w.aggregate.requests = ((firsts bindings).filter (·.generateFactory)).map (·.contract) ∧
    (∀ step, (w.take step).aggregate.entries =
      (w.aggregate.entries.map fun e => { e with
        implementations := e.implementations ++
          ((w.offered step e.contractName).removeAll e.implementations).eraseDups }) ++
      (w.opened? step).toList) ∧
    ∀ output,
      ((w.aggregate.mergeFiles output w.tree w.reports).2.2 = .ok () ↔
        ∀ contractName ∈ w.contractNames, endsMerging output w.tree contractName = false) ∧
      ((w.aggregate.mergeFiles output w.tree w.reports).2.2 = .ok () →
        ∀ contractName ∈ w.contractNames,
          w.offered (.merge output) contractName = existingLines output w.tree contractName) := by
  intro w bindings
  have hholds : w.Holds bindings _ := holds_after rfl steps
  refine ⟨hholds.contractNames, ?_, ?_, hholds.requests, hholds.entries_take, fun output => ?_⟩
  · rw [hholds.contractNames]
    exact firsts_nodup bindings
  · intro e he
    rw [hholds.entries] at he
    obtain ⟨first, -, rfl⟩ := List.mem_map.mp he
    exact eraseDups_nodup _
  · rw [merge_eq_ok_iff]
    refine ⟨?_, fun hall contractName hmem => if_pos (by rwa [hall])⟩
    rw [comesTo, List.takeWhile_eq_self_iff]
    simp only [Bool.not_eq_true']

/-! ### A path that no system accepts -/

/-- A registry file for the second of two contracts. -/
def stoppedTree : FileTree where
  home := []
  nodes := [(["o"], .directory), (["o", "s"], .directory),
    (["o", "s", "b.B"], .file (Text.utf8Bytes "b.Old\n".toList))]

/-- A provider for each contract; the name of the first contract holds a null character. -/
def stoppedSteps : List Step :=
  [.add { contract := { module := "a", qualname := "A\x00" },
          implementation := { module := "a", qualname := "I" } },
    .add { contract := { module := "b", qualname := "B" },
           implementation := { module := "b", qualname := "I" } }]

/-- Merging can end at one contract before it comes to another whose file can be read. -/
theorem merging_stopped :
    ¬ ∀ (tree : FileTree) (steps : List Step) (output : Output),
      let w := after { tree } steps
      (w.take (.merge output)).aggregate.entries = w.aggregate.entries.map fun e =>
        let lines := existingLines output w.tree e.contractName
        { e with
          implementations := e.implementations ++ (lines.removeAll e.implementations).eraseDups } := by
  intro h
  have hentries := h stoppedTree stoppedSteps ⟨⟨.none, ["o"]⟩, ⟨.none, ["o"]⟩, "s", "utf-8", []⟩
  exact absurd hentries (by decide +kernel)

end Aggregation

end ProviderRegistry.Registry
