import ProviderRegistry.Proofs.Generating
import ProviderRegistry.Proofs.Merging
import ProviderRegistry.Proofs.Questions
import ProviderRegistry.Proofs.Writing
import ProviderRegistry.Round

/-!
# What a round does

A round that ends well has asked which classes it accepts (`Processor.accepted`), merged
them with the registry files, given every entry its turn and then every request for a
factory (`Finished`). A round without marked classes is no exception: it accepts nothing,
and all that follows comes to nothing.
-/

namespace ProviderRegistry

open Symbols Registry Factory

/-! ## Parts of a round -/

namespace Rounding

variable {α β : Type} {output output' : Output} {s s' : Session}

/-- A part of a round ends well: what it gives, and what it leaves. -/
def Ends (action : Rounding α) (output : Output) (s : Session) (a : α) (output' : Output)
    (s' : Session) : Prop :=
  action output s = ((.ok a, output'), s')

theorem ends_pure {a b : α} :
    Ends (pure a) output s b output' s' ↔ b = a ∧ output' = output ∧ s' = s := by
  constructor
  · intro h
    obtain ⟨h, hs⟩ := Prod.mk.inj h
    obtain ⟨h, houtput⟩ := Prod.mk.inj h
    exact ⟨(Except.ok.inj h).symm, houtput.symm, hs.symm⟩
  · rintro ⟨rfl, rfl, rfl⟩
    rfl

theorem of_ends_bind {action : Rounding α} {next : α → Rounding β} {b : β}
    (h : Ends (action >>= next) output s b output' s') :
    ∃ a middle t, Ends action output s a middle t ∧ Ends (next a) middle t b output' s' := by
  change (match action output s with
    | ((r, output), s) => ExceptT.bindCont next r output s) = ((.ok b, output'), s') at h
  unfold Ends
  generalize action output s = r at h ⊢
  obtain ⟨⟨r, middle⟩, t⟩ := r
  cases r with
  | error e => cases (Prod.mk.inj (Prod.mk.inj h).1).1
  | ok a => exact ⟨a, middle, t, rfl, h⟩

theorem of_ends_ofQuery_bind {query : Query α} {next : α → Rounding β} {b : β}
    (h : Ends (ofQuery query >>= next) output s b output' s') :
    ∃ a t, query.run s = (.ok a, t) ∧ Ends (next a) output t b output' s' := by
  obtain ⟨a, middle, t, hquery, hnext⟩ := of_ends_bind h
  change (((query.run s).1, output), (query.run s).2) = ((.ok a, middle), t) at hquery
  obtain ⟨hquery, hsession⟩ := Prod.mk.inj hquery
  obtain ⟨hresult, rfl⟩ := Prod.mk.inj hquery
  exact ⟨a, t, Prod.ext hresult hsession, hnext⟩

/-- Asking for the reports gives those made so far. -/
theorem of_ends_reports_bind {next : List Diagnostic → Rounding β} {b : β}
    (h : Ends (ofQuery (return (← get).reports.diagnostics) >>= next) output s b output' s') :
    Ends (next s.reports.diagnostics) output s b output' s' := h

/-- The session with other files and reports. -/
def resume (s : Session) (out : Work) : Session :=
  { s with world := { s.world with files := out.tree }, reports := out.reports }

theorem of_ends_step {action : Work → Work × Except TextFileError α} {a : α}
    (h : Ends (step action) output s a output' s') :
    ∃ out, action ⟨output, s.world.files, s.reports⟩ = (out, .ok a) ∧ output' = out.output ∧
      s' = resume s out := by
  change (((action ⟨output, s.world.files, s.reports⟩).2.mapError World.Raised.ofTextFile,
    (action ⟨output, s.world.files, s.reports⟩).1.output),
    resume s (action ⟨output, s.world.files, s.reports⟩).1) = ((.ok a, output'), s') at h
  generalize action ⟨output, s.world.files, s.reports⟩ = r at h ⊢
  obtain ⟨out, r⟩ := r
  obtain ⟨h, hs⟩ := Prod.mk.inj h
  obtain ⟨h, houtput⟩ := Prod.mk.inj h
  cases r with
  | error e => cases h
  | ok b =>
    obtain rfl := Except.ok.inj h
    exact ⟨out, rfl, houtput.symm, hs.symm⟩

end Rounding

/-! ## Whole rounds -/

/-- The providers that a round accepts. -/
def Processor.accepted (p : Processor) : Query (List Binding) := do
  Resolution.bindingsOf p.markers (← Query.annotated p.markers)

theorem Processor.keepsFiles_accepted (p : Processor) : Query.KeepsFiles p.accepted :=
  (Query.keepsFiles_annotated _).bind fun _ => Resolution.keepsFiles_bindingsOf _ _

section

variable (output : Output) (s : Session) (bindings : List Binding)

/-- The entries that a round writes. -/
def mergedEntries : List Entry :=
  (firsts bindings).map fun first => mergedEntry output s.world.files bindings first.key

/-- The reports of registry files that a round could not read. -/
def unreadReports : List Diagnostic :=
  (firsts bindings).filterMap fun first => unreadReport? output s.world.files first.key

/-- The contracts whose factory a round is asked for. -/
def requestedFactories : List Element :=
  ((firsts bindings).filter (·.generateFactory)).map (·.contract)

/-- What a round has written once every entry has had its turn. -/
def registryWork : Work :=
  let reports : Reports := ⟨s.reports.diagnostics ++ unreadReports output s bindings⟩
  let written := writeEntries output (mergedEntries output s bindings) s.world.files reports
  ⟨output, written.1, written.2.1⟩

end

/-- Without providers a round writes nothing. -/
theorem registryWork_nil (output : Output) (s : Session) :
    registryWork output s [] = ⟨output, s.world.files, s.reports⟩ := by
  simp [registryWork, unreadReports, mergedEntries, firsts, Registry.writeEntries]

/-- The contracts of requests are those of providers that ask for a factory. -/
theorem exists_binding_of_mem_requestedFactories {bindings : List Binding} {contract : Element}
    (h : contract ∈ requestedFactories bindings) :
    ∃ b ∈ bindings, b.generateFactory = true ∧ b.contract = contract := by
  obtain ⟨b, hb, rfl⟩ := List.mem_map.mp h
  obtain ⟨hfirst, hrequested⟩ := List.mem_filter.mp hb
  exact ⟨b, firsts_subset _ hfirst, hrequested, rfl⟩

/-- What a round that ends well has done with the providers that it accepts. -/
structure Finished (p : Processor) (output : Output) (s : Session) (bindings : List Binding)
    (outcome : RoundOutcome) (output' : Output) (s' : Session) : Prop where
  entries : outcome.entries = mergedEntries output s bindings
  requests : outcome.requests = requestedFactories bindings
  completes : ∀ t ∈ turns output outcome.entries s.world.files, t.completes output = true
  registryFiles : outcome.registryFiles =
    (openedTurns output outcome.entries s.world.files).map (·.path output)
  generating : p.generator.generateAll outcome.requests (registryWork output s bindings) =
    (⟨output', s'.world.files, s'.reports⟩, .ok outcome.generatedSources)
  model : s'.model = s.model

namespace Processor

variable {p : Processor} {output output' : Output} {s s' : Session} {outcome : RoundOutcome}

/-- A round accepts nothing when no class carries a marker, and does nothing then. -/
theorem finished_nil (p : Processor) (output : Output) (s : Session)
    (diagnostics : List Diagnostic) : Finished p output s [] { diagnostics } output s where
  entries := rfl
  requests := rfl
  completes := List.forall_mem_nil _
  registryFiles := rfl
  generating := by rw [registryWork_nil]; rfl
  model := rfl

theorem of_ends_mergeFiles {bindings : List Binding} {merged : Aggregate}
    (h : Rounding.Ends (mergeFiles (.ofBindings bindings)) output s merged output' s') :
    output = output' ∧
      s' = { s with reports := ⟨s.reports.diagnostics ++ unreadReports output s bindings⟩ } ∧
      merged.entries = mergedEntries output s bindings ∧
      merged.requests = requestedFactories bindings := by
  obtain ⟨out, hmerge, rfl, rfl⟩ := Rounding.of_ends_step h
  rcases hrun : (Aggregate.ofBindings bindings).mergeFiles output s.world.files s.reports with
    ⟨found, reports, result⟩
  simp only [hrun, Prod.mk.injEq] at hmerge
  obtain ⟨rfl, hresult⟩ := hmerge
  cases result with
  | error e => cases hresult
  | ok u =>
    obtain rfl : found = merged := Except.ok.inj hresult
    obtain ⟨hentries, hrequests, hreports⟩ := Aggregate.of_mergeFiles_eq_ok hrun
    refine ⟨rfl, ?_, hentries, hrequests⟩
    rw [unreadReports, ← hreports]
    rfl

theorem of_ends_writeEntries {entries : List Entry} {paths : List Path}
    (h : Rounding.Ends (writeEntries entries) output s paths output' s') :
    ∃ tree reports, Registry.writeEntries output entries s.world.files s.reports =
        (tree, reports, .ok paths) ∧ output = output' ∧
      s' = Rounding.resume s ⟨output, tree, reports⟩ := by
  obtain ⟨out, hwrite, rfl, rfl⟩ := Rounding.of_ends_step h
  rcases hrun : Registry.writeEntries output entries s.world.files s.reports with
    ⟨tree, reports, result⟩
  simp only [hrun, Prod.mk.injEq] at hwrite
  obtain ⟨rfl, rfl⟩ := hwrite
  exact ⟨tree, reports, rfl, rfl, rfl⟩

theorem of_processMarked {marked : List Element}
    (h : Rounding.Ends (p.processMarked marked) output s outcome output' s') :
    ∃ bindings asked, (Resolution.bindingsOf p.markers marked).run s = (.ok bindings, asked) ∧
      ∀ diagnostics, Finished p output asked bindings { outcome with diagnostics } output' s' := by
  -- The round is taken apart in its order: resolving, merging, writing, generating.
  obtain ⟨bindings, asked, hasked, hrest⟩ := Rounding.of_ends_ofQuery_bind h
  obtain ⟨merged, middle, merging, hmerged, hrest⟩ := Rounding.of_ends_bind hrest
  obtain ⟨rfl, rfl, hentries, hrequests⟩ := of_ends_mergeFiles hmerged
  obtain ⟨paths, middle, writing, hwritten, hrest⟩ := Rounding.of_ends_bind hrest
  obtain ⟨tree, reports, hwrite, rfl, rfl⟩ := of_ends_writeEntries hwritten
  obtain ⟨sources, middle, generating, hgenerated, hrest⟩ := Rounding.of_ends_bind hrest
  obtain ⟨rfl, rfl, rfl⟩ := Rounding.ends_pure.mp hrest
  obtain ⟨out, hgenerate, rfl, rfl⟩ := Rounding.of_ends_step hgenerated
  refine ⟨bindings, asked, hasked, fun diagnostics => ?_⟩
  have hwork : registryWork output asked bindings = ⟨output, tree, reports⟩ := by
    rw [registryWork, ← hentries]
    simp only [hwrite]
  obtain ⟨-, -, hpaths, -⟩ := of_writeEntries_eq_ok hwrite
  exact {
    entries := hentries
    requests := hrequests
    completes := completes_of_writeEntries hwrite
    registryFiles := hpaths
    generating := by rw [hwork]; exact hgenerate
    model := rfl }

/-- **What a round that ends well has done.** -/
theorem of_process (h : Rounding.Ends p.process output s outcome output' s') :
    ∃ bindings asked, p.accepted.run s = (.ok bindings, asked) ∧
      Finished p output asked bindings outcome output' s' ∧
      outcome.diagnostics = s'.reports.diagnostics.drop s.reports.diagnostics.length := by
  obtain ⟨marked, asked, hmarked, hrest⟩ :=
    Rounding.of_ends_ofQuery_bind (Rounding.of_ends_reports_bind h)
  have haccepted : p.accepted.run s = (Resolution.bindingsOf p.markers marked).run asked := by
    rw [accepted, Leaves.run_bind, hmarked]
  by_cases hempty : marked.isEmpty = true
  · -- Without marked classes the round stops here, as if it had gone on with no bindings.
    simp only [hempty, if_true] at hrest
    obtain ⟨result, middle, t, hresult, hlast⟩ := Rounding.of_ends_bind hrest
    obtain ⟨rfl, rfl, rfl⟩ := Rounding.ends_pure.mp hresult
    have hend := Rounding.of_ends_reports_bind hlast
    obtain ⟨rfl, rfl, rfl⟩ := Rounding.ends_pure.mp hend
    obtain rfl := List.isEmpty_iff.mp hempty
    exact ⟨[], s', haccepted, finished_nil p output' s' _, rfl⟩
  · simp only [hempty, Bool.false_eq_true, if_false] at hrest
    obtain ⟨result, middle, t, hresult, hlast⟩ := Rounding.of_ends_bind hrest
    have hend := Rounding.of_ends_reports_bind hlast
    obtain ⟨rfl, rfl, rfl⟩ := Rounding.ends_pure.mp hend
    obtain ⟨bindings, resolved, hresolved, hfinished⟩ := of_processMarked hresult
    exact ⟨bindings, resolved, haccepted.trans hresolved, hfinished _, rfl⟩

end Processor

/-! ## What a finished round leaves -/

namespace Finished

variable {p : Processor} {output output' : Output} {s s' : Session} {bindings : List Binding}
  {outcome : RoundOutcome}

/-- The modules that a round has generated are the requested ones that were not refused. -/
theorem generatedSources (h : Finished p output s bindings outcome output' s') :
    outcome.generatedSources =
      (p.generator.attempts outcome.requests (registryWork output s bindings)).filterMap
        (·.2.toOption) :=
  (of_generateAll_eq_ok h.generating).1

/-- What the generating has left, once the registry files are written. -/
theorem generated (h : Finished p output s bindings outcome output' s') :
    Generated (registryWork output s bindings) ⟨output', s'.world.files, s'.reports⟩
      outcome.generatedSources
      ((p.generator.attempts outcome.requests (registryWork output s bindings)).filterMap
        refusalReport?) :=
  (of_generateAll_eq_ok h.generating).2

/-- A round that accepts nothing changes no file. -/
theorem files_of_nil (h : Finished p output s [] outcome output' s') :
    s'.world.files = s.world.files := by
  have hgenerating := h.generating
  rw [h.requests, registryWork_nil] at hgenerating
  exact (congrArg (·.1.tree) hgenerating).symm

/-- The writing of the registry files, which has ended well. -/
theorem writeEntries_eq (h : Finished p output s bindings outcome output' s') :
    ∃ tree reports, Registry.writeEntries output outcome.entries s.world.files
        ⟨s.reports.diagnostics ++ unreadReports output s bindings⟩ =
          (tree, reports, .ok outcome.registryFiles) ∧
      registryWork output s bindings = ⟨output, tree, reports⟩ := by
  obtain ⟨tree, hwrite, -⟩ := writeEntries_of_completes outcome.entries s.world.files
    ⟨s.reports.diagnostics ++ unreadReports output s bindings⟩ h.completes
  refine ⟨tree, _, hwrite.trans (by rw [h.registryFiles]), ?_⟩
  rw [registryWork, ← h.entries]
  simp only [hwrite]

/-- What a round has reported once its classes are resolved: the registry files that it
could not read, those that it could not write, and the factories that it could not. -/
theorem reports (h : Finished p output s bindings outcome output' s') :
    s'.reports.diagnostics = s.reports.diagnostics ++ (unreadReports output s bindings ++
      (turns output outcome.entries s.world.files).filterMap (·.report? output) ++
      (p.generator.attempts outcome.requests (registryWork output s bindings)).filterMap
        refusalReport?) := by
  obtain ⟨tree, reports, hwrite, hwork⟩ := h.writeEntries_eq
  obtain ⟨-, hreports, -⟩ := of_writeEntries_eq_ok hwrite
  rw [h.generated.reports, hwork, hreports]
  simp only [List.append_assoc]

/-- A finished round has kept every directory. -/
theorem keeps (h : Finished p output s bindings outcome output' s') :
    s.world.files.Keeps s'.world.files := by
  obtain ⟨tree, reports, hwrite, hwork⟩ := h.writeEntries_eq
  have hgenerated := h.generated.keeps
  rw [hwork] at hgenerated
  exact (of_writeEntries_eq_ok hwrite).1.trans hgenerated

/-- The content of a file after a round that has put no module in its place. -/
theorem file (h : Finished p output s bindings outcome output' s') {l : Location}
    (hl : ∀ q ∈ outcome.generatedSources, s.world.files.reach q ≠ l) :
    s'.world.files.file? l =
      match lastAt output l (openedTurns output outcome.entries s.world.files) with
      | some t => output.bytes? t.entry
      | none => s.world.files.file? l := by
  obtain ⟨tree, reports, hwrite, hwork⟩ := h.writeEntries_eq
  obtain ⟨hkeeps, -, -, hfile⟩ := of_writeEntries_eq_ok hwrite
  have hgenerated := h.generated.file l
  rw [hwork] at hgenerated
  refine (hgenerated fun q hq => ?_).trans (hfile l)
  rw [hkeeps.reach]
  exact hl q hq

/-! ### Registry files -/

/-- The path of a registry file that was written leads to it. -/
theorem locate_of_mem_registryFiles (h : Finished p output s bindings outcome output' s')
    {path : Path} (hwritten : path ∈ outcome.registryFiles) :
    s'.world.files.locate path = .ok (s.world.files.reach path) := by
  obtain ⟨tree, reports, hwrite, hwork⟩ := h.writeEntries_eq
  rw [h.registryFiles] at hwritten
  obtain ⟨t, ht, rfl⟩ := List.mem_map.mp hwritten
  have hkeeps : tree.Keeps s'.world.files := by
    have hgenerated := h.generated.keeps
    rwa [hwork] at hgenerated
  have hlocate := hkeeps.locate (locate_of_mem_openedTurns hwrite ht)
  rwa [Turn.location, (keeps_of_mem_turns (List.mem_filter.mp ht).1).reach] at hlocate

section

variable {contractName : String} (h : Finished p output s bindings outcome output' s')
  (hname : IsFileName contractName) (hkeys : ∀ b ∈ bindings, IsFileName b.key)
  (hl : ∀ q ∈ outcome.generatedSources, s.world.files.reach q ≠
    s.world.files.reach (output.registryPath contractName))

include h hname hkeys

/-- The file of a contract is opened in the turn of its entry only. -/
theorem entry_of_location_eq {t : Turn}
    (ht : t ∈ openedTurns output outcome.entries s.world.files)
    (hlocation : t.location output =
      s.world.files.reach (output.registryPath contractName)) :
    t.entry = mergedEntry output s.world.files bindings contractName ∧
      contractName ∈ bindings.map (·.key) := by
  have hmem := (List.mem_filter.mp ht).1
  -- The turn is that of an entry of the round, whose contract is that of a binding.
  have hentry : t.entry ∈ mergedEntries output s bindings := by
    rw [← h.entries]
    have hmap := List.mem_map_of_mem (f := (·.entry)) hmem
    rw [turns_map_entry] at hmap
    exact (List.mem_filter.mp hmap).1
  obtain ⟨first, hfirst, hfirst_eq⟩ := List.mem_map.mp hentry
  have hkey : first.key ∈ bindings.map (·.key) :=
    mem_firsts_key.mp (List.mem_map_of_mem hfirst)
  have hcontract : t.entry.contractName = first.key := by
    rw [← hfirst_eq]
    rfl
  rw [Turn.location, Turn.path, (keeps_of_mem_turns hmem).reach, hcontract] at hlocation
  obtain ⟨b, hb, hbkey⟩ := List.mem_map.mp hkey
  have heq := Output.reach_registryFile_inj (hbkey ▸ hkeys b hb) hname hlocation
  exact ⟨by rw [← hfirst_eq, heq], heq ▸ hkey⟩

include hl

/-- The file of a contract that the round accepts nothing for is as it was. -/
theorem file_registry_of_nil (hnil : acceptedFor contractName bindings = []) :
    s'.world.files.file?
        (s.world.files.reach (output.registryPath contractName)) =
      s.world.files.file?
        (s.world.files.reach (output.registryPath contractName)) := by
  rw [h.file hl]
  cases hlast : lastAt output
    (s.world.files.reach (output.registryPath contractName))
    (openedTurns output outcome.entries s.world.files) with
  | none => rfl
  | some t =>
    have hfound := List.find?_some hlast
    have hmem := List.mem_reverse.mp (List.mem_of_find?_eq_some hlast)
    exact absurd (h.entry_of_location_eq hname hkeys hmem (eq_of_beq hfound)).2
      (acceptedFor_eq_nil.mp hnil)

/-- The file of a contract holds its entry once it is written. -/
theorem read_registry
    (hwritten : output.registryPath contractName ∈ outcome.registryFiles)
    {bytes : List UInt8}
    (hbytes : output.bytes? (mergedEntry output s.world.files bindings contractName) =
      some bytes) :
    s'.world.files.read (output.registryPath contractName) =
      .ok bytes := by
  have hlocate := h.locate_of_mem_registryFiles hwritten
  rw [h.registryFiles] at hwritten
  obtain ⟨t, ht, hpath⟩ := List.mem_map.mp hwritten
  have hreach : t.location output =
      s.world.files.reach (output.registryPath contractName) := by
    rw [Turn.location, hpath, (keeps_of_mem_turns (List.mem_filter.mp ht).1).reach]
  rw [FileTree.read_eq_ok, h.keeps.reach]
  refine ⟨hlocate, ?_⟩
  rw [h.file hl]
  -- The last turn at the location is that of the contract, since no other contract has a
  -- file there.
  cases hlast : lastAt output
    (s.world.files.reach (output.registryPath contractName))
    (openedTurns output outcome.entries s.world.files) with
  | none =>
    have hnone := List.find?_eq_none.mp hlast t (List.mem_reverse.mpr ht)
    rw [hreach] at hnone
    exact absurd (beq_self_eq_true _) hnone
  | some t' =>
    have hfound := List.find?_some hlast
    have hmem' := List.mem_reverse.mp (List.mem_of_find?_eq_some hlast)
    change output.bytes? t'.entry = some bytes
    rw [(h.entry_of_location_eq hname hkeys hmem' (eq_of_beq hfound)).1]
    exact hbytes

end

end Finished

end ProviderRegistry
