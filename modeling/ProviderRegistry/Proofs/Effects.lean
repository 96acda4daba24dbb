import ProviderRegistry.Proofs.Overwriting

/-!
# What a round changes

A round over sources tells exactly what it has written (`writes_as_reported`): each registry
file of the list holds its entry, each module of the list holds the factory of its request, no
two of them stand in one place, and every other file is as it was. Registry files and modules
never meet, because only registry files stand below a directory whose name is no identifier
(`reach_generated_ne_registry`).
-/

namespace ProviderRegistry

open Symbols Registry Factory

/-! ## Static models over time -/

namespace Symbols.StaticModel

/-- The static models that rounds can meet: those that have read nothing, and what scans have
left of others, whether or not they have ended well. -/
inductive Arises : StaticModel → Prop
  | fresh {model : StaticModel} (hscope : model.scope = {}) (helements : model.elements = none) :
      Arises model
  | scanned {model : StaticModel} (h : Arises model) (tree : FileTree) (reports : Reports) :
      Arises (model.scan tree reports).1

theorem Arises.wellNamed {model : StaticModel} (h : model.Arises) : model.WellNamed := by
  induction h with
  | fresh hscope helements => exact wellNamed_of_empty hscope helements
  | scanned _ tree reports ih => exact ih.scan tree reports

end Symbols.StaticModel

/-! ## Requests and the modules that they write -/

namespace Factory

variable {g : Generator} {out after : Work}

/-- What requests have written: modules of different names, none of them created before, each
of which holds its text. -/
structure Writes (g : Generator) (output : Output) (written : List Element) (tree : FileTree) :
    Prop where
  distinct : (written.map fun contract => (g.source contract).qualifiedModule).Nodup
  isNew : ∀ contract ∈ written, (g.source contract).qualifiedModule ∉ output.created
  holds : ∀ contract ∈ written, ∃ bytes, g.bytes? output contract = some bytes ∧
    tree.read (g.modulePath output contract) = .ok bytes

namespace Writes

variable {output : Output} {contract : Element} {written : List Element} {middle final : FileTree}

/-- A module that is written stays as it is when others are written after it. -/
theorem cons (h : Writes g (output.withCreated (g.source contract).qualifiedModule) written final)
    (hnew : (g.source contract).qualifiedModule ∉ output.created)
    (hholds : ∃ bytes, g.bytes? output contract = some bytes ∧
      final.read (g.modulePath output contract) = .ok bytes) :
    Writes g output (contract :: written) final := by
  have hlater : ∀ later ∈ written, (g.source later).qualifiedModule ∉ output.created ∧
      (g.source later).qualifiedModule ≠ (g.source contract).qualifiedModule := by
    intro later hmem
    have hcreated := h.isNew later hmem
    rw [Output.withCreated, List.mem_append, List.mem_singleton, not_or] at hcreated
    exact hcreated
  refine ⟨?_, ?_, ?_⟩
  · rw [List.map_cons, List.nodup_cons]
    refine ⟨fun hmem => ?_, h.distinct⟩
    obtain ⟨later, hmem, hname⟩ := List.mem_map.mp hmem
    exact (hlater later hmem).2 hname
  · rw [List.forall_mem_cons]
    exact ⟨hnew, fun later hmem => (hlater later hmem).1⟩
  · rw [List.forall_mem_cons]
    exact ⟨hholds, h.holds⟩

end Writes

/-- The modules of contracts with different module names stand in different places. -/
theorem reach_modulePath_ne {contract later : Element} (hdotted : IsDotted contract.qualifiedName)
    (hlater : IsDotted later.qualifiedName)
    (hne : (g.source later).qualifiedModule ≠ (g.source contract).qualifiedModule)
    (tree : FileTree) (output : Output) :
    tree.reach (g.modulePath output later) ≠ tree.reach (g.modulePath output contract) := by
  rw [Generator.modulePath_eq hlater, Generator.modulePath_eq hdotted]
  exact reach_placeOf_ne hne tree output

/-- **What requests write**: the modules of some of them, in their order. -/
theorem exists_writes {contracts : List Element} {paths : List Path}
    (hdotted : ∀ contract ∈ contracts, IsDotted contract.qualifiedName)
    (h : g.generateAll contracts out = (after, .ok paths)) :
    ∃ written, written.Sublist contracts ∧ paths = written.map (g.modulePath out.output) ∧
      Writes g out.output written after.tree := by
  -- By induction on the requests: what the later ones write has other names, since the output
  -- remembers the module that the first has written.
  induction contracts generalizing out paths with
  | nil =>
    cases h
    exact ⟨[], List.Sublist.refl _, rfl, List.nodup_nil, List.forall_mem_nil _,
      List.forall_mem_nil _⟩
  | cons contract rest ih =>
    rw [List.forall_mem_cons] at hdotted
    obtain ⟨next, path, more, hfirst, hrest, rfl⟩ := of_generateAll_cons_eq_ok h
    obtain ⟨written, hsublist, hmore, hwrites⟩ := ih hdotted.2 hrest
    rcases generate_cases hfirst with
      ⟨rfl, hnew, houtput, bytes, hbytes, hwrote⟩ | ⟨rfl, houtput, -, -⟩
    · rw [houtput] at hmore hwrites
      have hpaths : more = written.map (g.modulePath out.output) := hmore
      refine ⟨contract :: written, hsublist.cons_cons contract, ?_, ?_⟩
      · rw [hpaths]
        rfl
      · refine hwrites.cons hnew ⟨bytes, hbytes, ?_⟩
        have hgenerated := (of_generateAll_eq_ok hrest).2
        refine hgenerated.keeps.read hwrote.read ?_
        rw [hgenerated.file]
        · exact (FileTree.read_eq_ok.mp hwrote.read).2
        · intro q hq
          rw [hpaths] at hq
          obtain ⟨later, hlater, rfl⟩ := List.mem_map.mp hq
          have hname : (g.source later).qualifiedModule ≠
              (g.source contract).qualifiedModule := by
            have hcreated := hwrites.isNew later hlater
            rw [Output.withCreated, List.mem_append, List.mem_singleton, not_or] at hcreated
            exact hcreated.2
          exact reach_modulePath_ne hdotted.1 (hdotted.2 later (hsublist.subset hlater)) hname
            next.tree out.output
    · rw [houtput] at hmore hwrites
      exact ⟨written, hsublist.cons contract, hmore, hwrites⟩

/-! ## Where registry files and modules stand -/

/-- The components of a place of a factory module are identifiers, and at the end one with an
ending. -/
theorem notMem_sourceFile {contract : Element} (hdotted : IsDotted contract.qualifiedName)
    (g : Generator) {part : String} (hpart : ¬ IsDotted part)
    (hends : ¬ ".py".toList <:+ part.toList) :
    part ∉ sourceFile (g.source contract).qualifiedModule := by
  have hmodule := dottedParts_of_notMem (Element.notMem_factoryModule hdotted (.inl rfl))
  have hparts := dottedParts_qualify contract.packageName hmodule
  change part ∉ sourceFile (qualify contract.packageName (Naming.factoryModule contract.simpleName))
  rw [sourceFile_concat hparts, List.mem_append, List.mem_singleton, not_or]
  constructor
  · intro hmem
    split at hmem
    next => cases hmem
    next hne =>
      have hpackage := (Element.isDotted_packageName hdotted).resolve_left hne
      exact hpart (hpackage.dottedParts hmem)
  · rintro rfl
    rw [String.toList_append] at hends
    exact hends (List.suffix_append _ _)

end Factory

namespace Registry.Output

variable {output : Output} (hservices : output.servicesDir = Naming.servicesDir)

include hservices

/-- Where registry files stand when their directory has not been set. -/
theorem registryDirectory_eq :
    output.registryDirectory = output.classOutput.below ["META-INF", "services"] := by
  rw [registryDirectory, hservices]
  have hparts : Path.componentsOf (Naming.withoutTrailingSlashes Naming.servicesDir).toList =
      ["META-INF", "services"] := by decide +kernel
  have hroot : Path.rootOf ((Naming.withoutTrailingSlashes Naming.servicesDir).toList ++
      '/' :: "_".toList) = .none := by decide +kernel
  rw [hparts, hroot]
  rfl

/-- A registry file stands below a directory that is named so. -/
theorem mem_reach_registryPath {name : String} (h : IsFileName name) (tree : FileTree) :
    "META-INF" ∈ tree.reach (output.registryPath name) := by
  have hdots : ".." ∉ ["META-INF", "services"] := by decide
  rw [reach_registryFile h, registryDirectory_eq hservices, FileTree.reach_below hdots]
  simp

/-- **Registry files and modules never meet**, unless modules go below a directory of the name
that registry files have above them. -/
theorem reach_generated_ne_registry {contract : Element} {tree : FileTree} {name : String}
    (hplace : "META-INF" ∉ tree.reach output.sourceOutput)
    (hdotted : IsDotted contract.qualifiedName) (h : IsFileName name) (g : Generator) :
    tree.reach (g.modulePath output contract) ≠ tree.reach (output.registryPath name) := by
  intro heq
  have hmem := mem_reach_registryPath hservices h tree
  rw [← heq, Generator.modulePath_eq hdotted, FileTree.reach_below (dots_notMem_sourceFile _),
    List.mem_append] at hmem
  exact hmem.elim hplace (notMem_sourceFile hdotted g (by decide) (by decide))

end Registry.Output

/-! ## Whole rounds -/

namespace FinishedRound

variable {r : FinishedRound}

/-- A round has written what it reports and nothing else: what the lists of its result name
holds what it is to hold, in places of their own, and the files elsewhere are as they were. -/
structure WritesAsReported (r : FinishedRound) : Prop where
  registry : ∃ entries : List Entry, entries.Sublist r.outcome.entries ∧
    r.outcome.registryFiles = entries.map (fun entry => r.output.registryPath entry.contractName) ∧
    ∀ entry ∈ entries, r.finish.world.files.read (r.output.registryPath entry.contractName) =
      .ok (Text.utf8Bytes entry.render)
  generated : ∃ contracts : List Element, contracts.Sublist r.outcome.requests ∧
    r.outcome.generatedSources = contracts.map (r.processor.generator.modulePath r.output) ∧
    ∀ contract ∈ contracts,
      r.finish.world.files.read (r.processor.generator.modulePath r.output contract) =
        .ok (Text.utf8Bytes (r.processor.generator.source contract).render.toList)
  distinct : ((r.outcome.registryFiles ++ r.outcome.generatedSources).map
    r.start.world.files.reach).Nodup
  others : ∀ l, l ∉ (r.outcome.registryFiles ++ r.outcome.generatedSources).map
    r.start.world.files.reach → r.finish.world.files.file? l = r.start.world.files.file? l

/-- The entries whose registry files a round has opened. -/
def opened (r : FinishedRound) : List Entry :=
  (openedTurns r.output r.outcome.entries r.start.world.files).map (·.entry)

theorem opened_sublist : r.opened.Sublist r.outcome.entries := by
  have hturns : (openedTurns r.output r.outcome.entries r.start.world.files).Sublist
      (turns r.output r.outcome.entries r.start.world.files) := List.filter_sublist
  have hentries := hturns.map (·.entry)
  rw [turns_map_entry] at hentries
  exact hentries.trans List.filter_sublist

theorem registryFiles_eq : r.outcome.registryFiles =
    r.opened.map fun entry => r.output.registryPath entry.contractName := by
  obtain ⟨hfiles, hfinished⟩ := r.finished
  rw [hfinished.registryFiles, hfiles, opened, List.map_map]
  rfl

/-- The entry of a round is that of one contract, with the lines of its registry file. -/
theorem of_mem_entries {entry : Entry} (h : entry ∈ r.outcome.entries) :
    entry.contractName ∈ r.bindings.map (·.key) ∧
      entry = mergedEntry r.output r.asked.world.files r.bindings entry.contractName := by
  rw [r.finished.2.entries] at h
  obtain ⟨first, hfirst, rfl⟩ := List.mem_map.mp h
  exact ⟨mem_firsts_key.mp (List.mem_map_of_mem hfirst), rfl⟩

/-- No two entries of a round are of one contract. -/
theorem nodup_contractName : (r.outcome.entries.map (·.contractName)).Nodup := by
  rw [r.finished.2.entries, mergedEntries, List.map_map]
  exact firsts_nodup r.bindings

section

variable {model : StaticModel} (harises : model.Arises) (hmodel : r.start.model = .static model)

include harises hmodel

/-- The model of a round that has ended is one that further rounds can meet. -/
theorem arises_finish : ∃ scanned, r.finish.model = .static scanned ∧ scanned.Arises := by
  obtain ⟨scanned, reports, hscan, -, hasked⟩ := Processor.of_run_accepted hmodel r.run_accepted
  refine ⟨scanned, r.finished.2.model.trans (by rw [hasked]), ?_⟩
  have hscanned := harises.scanned r.start.world.files r.start.reports
  rwa [hscan] at hscanned

theorem isFileName_key : ∀ b ∈ r.bindings, IsFileName b.key :=
  fun b hb => (r.isDotted_of_mem_bindings hmodel harises.wellNamed b hb).1.isFileName

theorem isDotted_requests : ∀ contract ∈ r.outcome.requests, IsDotted contract.qualifiedName := by
  intro contract hcontract
  rw [r.finished.2.requests] at hcontract
  obtain ⟨b, hb, -, rfl⟩ := exists_binding_of_mem_requestedFactories hcontract
  exact (r.isDotted_of_mem_bindings hmodel harises.wellNamed b hb).1

theorem isFileName_contractName {entry : Entry} (h : entry ∈ r.outcome.entries) :
    IsFileName entry.contractName := by
  obtain ⟨b, hb, hkey⟩ := List.mem_map.mp (of_mem_entries h).1
  exact hkey ▸ isFileName_key harises hmodel b hb

omit harises in
/-- Without marked classes a round stops once it has asked for them. -/
theorem unchanged_of_unmarked {asked : Session}
    (h : (Query.annotated r.processor.markers).run r.start = (.ok [], asked)) :
    r.finish = asked ∧ r.finish.world = r.start.world ∧ r.leftOutput = r.output ∧
      r.outcome.entries = [] ∧ r.outcome.registryFiles = [] ∧
      r.outcome.generatedSources = [] := by
  obtain ⟨marked, t, hmarked, hrest⟩ :=
    Rounding.of_ends_ofQuery_bind (Rounding.of_ends_reports_bind r.ends)
  rw [hmarked] at h
  obtain ⟨hnil, rfl⟩ := Prod.mk.inj h
  obtain rfl : marked = [] := Except.ok.inj hnil
  obtain ⟨scanned, reports, -, -, hasked⟩ := Query.of_run_annotated hmodel hmarked
  simp only [List.isEmpty_nil, if_true] at hrest
  obtain ⟨result, middle, t', hresult, hlast⟩ := Rounding.of_ends_bind hrest
  obtain ⟨rfl, rfl, rfl⟩ := Rounding.ends_pure.mp hresult
  have hend := Rounding.of_ends_reports_bind hlast
  obtain ⟨houtcome, houtput, hfinish⟩ := Rounding.ends_pure.mp hend
  refine ⟨hfinish, ?_, houtput, ?_, ?_, ?_⟩
  · rw [hfinish, hasked]
  · rw [houtcome]
  · rw [houtcome]
  · rw [houtcome]

variable (hencoding : Text.Encoding.ofName? r.output.encoding = some .utf8)
  (hservices : r.output.servicesDir = Naming.servicesDir)
  (hplace : "META-INF" ∉ r.start.world.files.reach r.output.sourceOutput)

include hservices hplace in
theorem reach_generatedSources_ne {name : String} (hname : IsFileName name) :
    ∀ q ∈ r.outcome.generatedSources,
      r.start.world.files.reach q ≠ r.start.world.files.reach (r.output.registryPath name) := by
  intro q hq
  obtain ⟨contract, hcontract, rfl⟩ := exists_contract_of_mem r.finished.2.generating hq
  exact Output.reach_generated_ne_registry hservices hplace
    (isDotted_requests harises hmodel contract hcontract) hname r.processor.generator

include hencoding hservices hplace in
/-- A registry file that has been opened holds its entry in the end. -/
theorem read_opened {entry : Entry} (h : entry ∈ r.opened) :
    r.finish.world.files.read (r.output.registryPath entry.contractName) =
      .ok (Text.utf8Bytes entry.render) := by
  obtain ⟨hfiles, hfinished⟩ := r.finished
  have hentry := opened_sublist.subset h
  have hname := isFileName_contractName harises hmodel hentry
  have hapart := reach_generatedSources_ne harises hmodel hservices hplace hname
  rw [← hfiles] at hapart
  refine hfinished.read_registry hname (isFileName_key harises hmodel) hapart ?_ ?_
  · rw [registryFiles_eq]
    exact List.mem_map_of_mem h
  · rw [← (of_mem_entries hentry).2, Output.bytes?, hencoding]
    rfl

include hservices hplace in
/-- No two files that a round has written stand in one place. -/
theorem nodup_reach {contracts : List Element}
    (hsources : r.outcome.generatedSources =
      contracts.map (r.processor.generator.modulePath r.output))
    (hdotted : ∀ contract ∈ contracts, IsDotted contract.qualifiedName)
    (hdistinct : (contracts.map fun contract =>
      (r.processor.generator.source contract).qualifiedModule).Nodup) :
    ((r.outcome.registryFiles ++ r.outcome.generatedSources).map
      r.start.world.files.reach).Nodup := by
  rw [List.map_append, List.nodup_append']
  refine ⟨?_, ?_, ?_⟩
  · -- Different contracts have different registry files.
    rw [registryFiles_eq, List.map_map]
    have hcontracts : (r.opened.map (·.contractName)).Nodup :=
      (opened_sublist.map _).nodup nodup_contractName
    refine List.Nodup.map_on (fun entry hentry other hother heq => ?_) hcontracts.of_map
    have hname := isFileName_contractName harises hmodel (opened_sublist.subset hentry)
    have hother_name := isFileName_contractName harises hmodel (opened_sublist.subset hother)
    exact List.inj_on_of_nodup_map hcontracts hentry hother
      (Output.reach_registryFile_inj hname hother_name heq)
  · rw [hsources, List.map_map]
    refine List.Nodup.map_on (fun contract hcontract other hother heq => ?_) hdistinct.of_map
    by_contra hne
    refine reach_modulePath_ne (hdotted other hother) (hdotted contract hcontract) (fun hname => ?_)
      r.start.world.files r.output heq
    exact hne (List.inj_on_of_nodup_map hdistinct hcontract hother hname)
  · intro l hregistry hgenerated
    rw [registryFiles_eq, List.map_map] at hregistry
    obtain ⟨entry, hentry, rfl⟩ := List.mem_map.mp hregistry
    obtain ⟨q, hq, heq⟩ := List.mem_map.mp hgenerated
    have hname := isFileName_contractName harises hmodel (opened_sublist.subset hentry)
    exact reach_generatedSources_ne harises hmodel hservices hplace hname q hq heq

omit harises hmodel in
/-- A file that a round has not written is as it was. -/
theorem file?_of_notMem {l : Location} (h : l ∉ (r.outcome.registryFiles ++
    r.outcome.generatedSources).map r.start.world.files.reach) :
    r.finish.world.files.file? l = r.start.world.files.file? l := by
  obtain ⟨hfiles, hfinished⟩ := r.finished
  rw [List.map_append, List.mem_append, not_or] at h
  have hgenerated : ∀ q ∈ r.outcome.generatedSources, r.asked.world.files.reach q ≠ l := by
    intro q hq heq
    rw [hfiles] at heq
    exact h.2 (List.mem_map.mpr ⟨q, hq, heq⟩)
  rw [hfinished.file hgenerated, hfiles]
  cases hlast : lastAt r.output l (openedTurns r.output r.outcome.entries r.start.world.files) with
  | none => rfl
  | some t =>
    -- An entry whose file stands there would be among the reported ones.
    have hfound := List.find?_some hlast
    have hlocation := eq_of_beq hfound
    have ht := List.mem_reverse.mp (List.mem_of_find?_eq_some hlast)
    refine absurd (List.mem_map.mpr ⟨t.path r.output, ?_, ?_⟩) h.1
    · rw [hfinished.registryFiles, hfiles]
      exact List.mem_map_of_mem ht
    · rw [← hlocation, Turn.location, (keeps_of_mem_turns (List.mem_filter.mp ht).1).reach]

end

end FinishedRound

end ProviderRegistry
