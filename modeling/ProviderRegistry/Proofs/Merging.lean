import ProviderRegistry.Proofs.Aggregates
import ProviderRegistry.Proofs.Outputs

/-!
# Merging registry files

What merging adds to an entry are the lines of its registry file, as far as that could be
read (`existingLines`). With the closed form of an aggregate this gives the entries that a
round writes: the accepted names first, the lines of the file after them, and later
duplicates left out (`mergedEntry`).
-/

namespace ProviderRegistry.Registry

/-- The lines of a contract's registry file; none if it cannot be read. -/
def existingLines (output : Output) (tree : FileTree) (contractName : String) : List String :=
  match output.readResource tree (output.registryFile contractName) with
  | .ok text => readLines text
  | .error _ => []

/-- Why the registry file of a contract that is there could not be read, if it could not. -/
def unreadable? (output : Output) (tree : FileTree) (contractName : String) :
    Option TextFileError :=
  match output.readResource tree (output.registryFile contractName) with
  | .ok _ => none
  | .error (.file ⟨.notFound, _⟩) => none
  | .error e => some e

/-- Nothing is merged from a file that cannot be read. -/
theorem existingLines_of_unreadable {output : Output} {tree : FileTree} {contractName : String}
    {e : TextFileError} (h : unreadable? output tree contractName = some e) :
    existingLines output tree contractName = [] := by
  rw [unreadable?] at h
  rw [existingLines]
  cases hread : output.readResource tree (output.registryFile contractName) with
  | ok text =>
    rw [hread] at h
    cases h
  | error e => rfl

/-- The report of a registry file that could not be read. -/
def unreadReport? (output : Output) (tree : FileTree) (contractName : String) :
    Option Diagnostic :=
  (unreadable? output tree contractName).map fun e =>
    { message := "Could not read " ++
        (output.resourcePath (output.registryFile contractName)).text ++ ": " ++ e.message }

/-- The entry of a contract, with the lines of its registry file merged in. -/
def mergedEntry (output : Output) (tree : FileTree) (bindings : List Binding)
    (contractName : String) : Entry where
  contractName
  implementations :=
    (acceptedFor contractName bindings ++ existingLines output tree contractName).eraseDups

namespace Aggregate

variable {output : Output} {tree : FileTree} {groups groups' : List Group}
  {reports reports' : Reports}

theorem mergeGroup_fst (output : Output) (tree : FileTree) (g : Group) :
    (mergeGroup output tree g).1 =
      { g with entry := g.entry.merge (existingLines output tree g.entry.contractName) } := by
  rw [mergeGroup, existingLines]
  cases output.readResource tree (output.registryFile g.entry.contractName) with
  | ok text => rfl
  | error e =>
    simp only
    split
    next h => cases h
    next => rfl
    next => split <;> rfl

/-- What merging a group reports, or why merging ends at it. -/
theorem mergeGroup_snd (output : Output) (tree : FileTree) (g : Group) :
    (mergeGroup output tree g).2 =
      match unreadable? output tree g.entry.contractName with
      | none => .ok none
      | some e =>
        if e.isUnreadable then
          .ok (some ("Could not read " ++
            (output.resourcePath (output.registryFile g.entry.contractName)).text ++ ": " ++
              e.message))
        else .error e := by
  rw [mergeGroup, unreadable?]
  generalize output.readResource tree (output.registryFile g.entry.contractName) = reading
  cases reading with
  | ok text => rfl
  | error e =>
    cases e with
    | file e =>
      obtain ⟨cause, path⟩ := e
      cases cause with
      | notFound => rfl
      | _ => exact apply_ite Prod.snd _ _ _
    | _ => rfl

/-- Merging a group either reports why its file could not be read, or reports nothing. -/
theorem of_mergeGroup_eq_ok {g g' : Group} {report : Option String}
    (h : mergeGroup output tree g = (g', .ok report)) :
    report.map (fun message => ({ message := message } : Diagnostic)) =
      unreadReport? output tree g.entry.contractName := by
  have hsnd := mergeGroup_snd output tree g
  rw [h] at hsnd
  rw [unreadReport?]
  cases hunreadable : unreadable? output tree g.entry.contractName with
  | none =>
    simp only [hunreadable] at hsnd
    rw [Except.ok.inj hsnd]
    rfl
  | some e =>
    simp only [hunreadable] at hsnd
    split at hsnd
    · rw [Except.ok.inj hsnd]
      rfl
    · cases hsnd

theorem mergeGroups_cons_error {g g' : Group} {e : TextFileError}
    (h : mergeGroup output tree g = (g', .error e)) (rest : List Group) (reports : Reports) :
    mergeGroups output tree (g :: rest) reports = (g' :: rest, reports, .error e) := by
  rw [mergeGroups, h]

theorem mergeGroups_cons_ok {g g' : Group} {report : Option String}
    (h : mergeGroup output tree g = (g', .ok report)) (rest : List Group) (reports : Reports) :
    mergeGroups output tree (g :: rest) reports =
      (g' :: (mergeGroups output tree rest (reports.errors report.toList)).1,
        (mergeGroups output tree rest (reports.errors report.toList)).2) := by
  rw [mergeGroups, h]

/-- Merging that ends well has merged every group and reported every file that could not
be read. -/
theorem of_mergeGroups_eq_ok
    (h : mergeGroups output tree groups reports = (groups', reports', .ok ())) :
    groups' = groups.map (fun g =>
        { g with entry := g.entry.merge (existingLines output tree g.entry.contractName) }) ∧
      reports'.diagnostics = reports.diagnostics ++
        groups.filterMap fun g => unreadReport? output tree g.entry.contractName := by
  induction groups generalizing reports groups' with
  | nil =>
    cases h
    simp
  | cons g rest ih =>
    have hfst := mergeGroup_fst output tree g
    rcases hg : mergeGroup output tree g with ⟨merged, result⟩
    cases result with
    | error e =>
      rw [mergeGroups_cons_error hg] at h
      cases (Prod.mk.inj (Prod.mk.inj h).2).2
    | ok report =>
      have hreport := of_mergeGroup_eq_ok hg
      rw [mergeGroups_cons_ok hg] at h
      -- The reports of the other groups come after that of the first.
      obtain ⟨rfl, hrest⟩ := Prod.mk.inj h
      obtain ⟨hgroups, hreports⟩ := ih (Prod.ext rfl hrest)
      rw [hg] at hfst
      refine ⟨?_, ?_⟩
      · rw [List.map_cons, ← hgroups, ← hfst]
      · rw [hreports, List.filterMap_cons, ← hreport, Reports.errors]
        cases report <;> simp

/-- **What merging makes of the providers of a round**: an entry for each contract, the
factories that are asked for, and a report of every registry file that could not be read. -/
theorem of_mergeFiles_eq_ok {bindings : List Binding} {merged : Aggregate}
    (h : (ofBindings bindings).mergeFiles output tree reports = (merged, reports', .ok ())) :
    merged.entries = (firsts bindings).map (fun f => mergedEntry output tree bindings f.key) ∧
      merged.requests = ((firsts bindings).filter (·.generateFactory)).map (·.contract) ∧
      reports'.diagnostics = reports.diagnostics ++
        (firsts bindings).filterMap fun f => unreadReport? output tree f.key := by
  rw [mergeFiles] at h
  rcases hrun : mergeGroups output tree (ofBindings bindings).groups reports with
    ⟨groups, next, result⟩
  simp only [hrun, Prod.mk.injEq] at h
  obtain ⟨rfl, rfl, rfl⟩ := h
  obtain ⟨rfl, hreports⟩ := of_mergeGroups_eq_ok hrun
  rw [ofBindings_groups, List.filterMap_map] at hreports
  rw [ofBindings_groups, List.map_map]
  refine ⟨?_, ?_, hreports⟩
  · rw [entries, List.map_map]
    refine List.map_congr_left fun f _ => ?_
    simp only [Function.comp_apply, groupOf, Entry.merge_mk]
    rfl
  · rw [requests, List.filter_map, List.map_map]
    rfl

end Aggregate

end ProviderRegistry.Registry
