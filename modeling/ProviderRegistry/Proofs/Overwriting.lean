import ProviderRegistry.Proofs.FactoryModules
import ProviderRegistry.Proofs.ProviderNames

/-!
# Factories in the place of sources

When the source output is the root that a round has scanned, factory modules stand among the
sources. A plain module is replaced when a factory is asked for whose module has its name, and
no other source is touched by the generating (`sources_replaced`): nothing else is looked at,
neither what the file holds nor which contract it declares.
-/

namespace ProviderRegistry

open Symbols Registry Factory

/-! ## Opening a file that is there -/

namespace FileTree

variable {tree : FileTree} {p : Path} {l : Location}

theorem node?_start (tree : FileTree) (p : Path) :
    tree.node? (tree.start p) = some .directory := by
  refine node?_of_isPrefixOf ?_
  rw [start]
  split <;> simp

/-- No null character comes into a path by taking components away. -/
theorem noNull_parent (h : p.hasNull = false) : p.parent.hasNull = false := by
  rw [Path.hasNull, List.any_eq_false] at h ⊢
  exact fun part hpart => h part (List.dropLast_subset _ hpart)

/-- What the last component of a path stands in is a directory. -/
theorem locate_parent (hl : tree.locate p = .ok l) (hne : p.parts ≠ []) :
    ∃ l', tree.locate p.parent = .ok l' ∧ tree.node? l' = some .directory := by
  obtain ⟨hnull, hfollow⟩ := locate_eq_ok_iff.mp hl
  rw [← List.dropLast_append_getLast hne] at hfollow
  obtain ⟨l', hl', hdirectory⟩ :=
    exists_follow_of_append (List.cons_ne_nil _ _) (node?_start tree p) hfollow
  exact ⟨l', locate_eq_ok_iff.mpr ⟨noNull_parent hnull, hl'⟩, hdirectory⟩

theorem ensureDirectory_of_directory (hl : tree.locate p = .ok l)
    (hd : tree.node? l = some .directory) : tree.ensureDirectory p = .ok tree := by
  have hmake : tree.makeDirectory p = .error ⟨.alreadyExists, p⟩ := by
    rw [makeDirectory, hl]
    simp only [hd]
  have hisDirectory : tree.isDirectory p = .ok true := by
    rw [isDirectory, find?, hl]
    simp only [hd]
  rw [ensureDirectory, hmake]
  simp only [hisDirectory, if_true]

/-- A file that is there can be opened for writing. -/
theorem exists_openForWriting {content : List UInt8} (h : tree.read p = .ok content) :
    ∃ after, tree.openForWriting p = (after, .ok ()) := by
  obtain ⟨hl, hfile⟩ := read_eq_ok.mp h
  have hnode : tree.node? (tree.reach p) = some (.file content) := by
    rw [file?, Option.bind_eq_some_iff] at hfile
    obtain ⟨node, hnode, hcontent⟩ := hfile
    cases node with
    | directory => cases hcontent
    | file c => rw [hnode, Option.some.inj hcontent]
  have hne : p.parts ≠ [] := by
    intro hnil
    have hstart : tree.reach p = tree.start p := by
      rw [reach, hnil]
      rfl
    rw [hstart, node?_start] at hnode
    cases hnode
  obtain ⟨l', hl', hdirectory⟩ := locate_parent hl hne
  have hensure : tree.ensureDirectory p.parent = .ok tree :=
    ensureDirectory_of_directory hl' hdirectory
  have hmade : tree.makeDirectories p.parent = (tree, .ok ()) := by
    rw [makeDirectories]
    cases p.parent.parts.length with
    | zero => rw [makeDirectoriesUpTo, hensure]; rfl
    | succ levels => rw [makeDirectoriesUpTo, hensure]; rfl
  have hwrite : tree.write p [] = .ok (tree.set (tree.reach p) (.file [])) := by
    rw [write, hl]
    simp only [hnode]
  exact ⟨_, by rw [openForWriting, hmade]; simp only [hwrite]; rfl⟩

/-- A file is read where its path has led before. -/
theorem Keeps.read {before after : FileTree} {content content' : List UInt8}
    (h : Keeps before after) (hread : before.read p = .ok content)
    (hfile : after.file? (before.reach p) = some content') : after.read p = .ok content' := by
  obtain ⟨hl, -⟩ := read_eq_ok.mp hread
  rw [read_eq_ok, h.reach]
  exact ⟨h.locate hl, hfile⟩

end FileTree

/-! ## Generating one module -/

namespace Registry.Output

variable {output output' : Output} {tree after : FileTree} {package module : String}
  {text : List Char}

/-- The bytes of a text in the encoding of an output; none if there is no such encoding or it
lacks a character. -/
def encoded? (output : Output) (text : List Char) : Option (List UInt8) :=
  match Text.Encoding.ofName? output.encoding with
  | none => none
  | some encoding => (Text.encode encoding text).toOption

/-- The output that has created one more module. -/
def withCreated (output : Output) (name : String) : Output :=
  { output with created := output.created ++ [name] }

/-- What writing a module has done that does not raise: the module is new and holds its text,
or it is not new or cannot be opened, and no file has changed. -/
theorem of_writeModule {result : Except OutputError Unit}
    (h : output.writeModule tree package module text = (output', after, result))
    (hresult : ∀ e, result = .error (.text e) → e.isSystem = true) :
    (result = .ok () ∧ qualify package module ∉ output.created ∧
        output' = output.withCreated (qualify package module) ∧
        ∃ bytes, output.encoded? text = some bytes ∧
          tree.Wrote (output.modulePath package module) bytes after) ∨
      ((∃ e, result = .error e) ∧ output' = output ∧ tree.Extends after ∧
        (qualify package module ∈ output.created ∨
          ∃ opened e, tree.openForWriting (output.modulePath package module) =
            (opened, .error e))) := by
  by_cases hcreated : output.created.contains (qualify package module) = true
  · simp only [writeModule, if_pos hcreated, Prod.mk.injEq] at h
    obtain ⟨rfl, rfl, rfl⟩ := h
    exact .inr ⟨⟨_, rfl⟩, rfl, .refl tree, .inl (List.contains_iff_mem.mp hcreated)⟩
  · have hnew : qualify package module ∉ output.created :=
      fun hmem => hcreated (List.contains_iff_mem.mpr hmem)
    rcases openAndWrite_cases tree (output.modulePath package module) output.encoding text with
      ⟨opened, e, hopen, hwrite, hext⟩ | ⟨opened, -, -, ⟨-, hwrite⟩ | ⟨known, e, -, -, hwrite⟩⟩ |
      ⟨opened, written, known, bytes, -, hknown, hencode, hwrite, hwrote⟩
    · simp only [writeModule, if_neg hcreated, hwrite, Prod.mk.injEq] at h
      obtain ⟨rfl, rfl, rfl⟩ := h
      exact .inr ⟨⟨_, rfl⟩, rfl, hext, .inr ⟨_, e, hopen⟩⟩
    · simp only [writeModule, if_neg hcreated, hwrite, Prod.mk.injEq] at h
      obtain ⟨-, -, rfl⟩ := h
      cases hresult _ rfl
    · simp only [writeModule, if_neg hcreated, hwrite, Prod.mk.injEq] at h
      obtain ⟨-, -, rfl⟩ := h
      cases hresult _ rfl
    · simp only [writeModule, if_neg hcreated, hwrite, Prod.mk.injEq] at h
      obtain ⟨rfl, rfl, rfl⟩ := h
      refine .inl ⟨rfl, hnew, rfl, bytes, ?_, hwrote⟩
      rw [encoded?, hknown]
      simp only [hencode]
      rfl

end Registry.Output

namespace Factory

variable {g : Generator} {contract : Element} {out after : Work}

/-- The bytes of the factory module of a contract. -/
def Generator.bytes? (g : Generator) (output : Output) (contract : Element) :
    Option (List UInt8) :=
  output.encoded? (g.source contract).render.toList

/-- What a request has done that does not raise: its module is new and has been written, or it
is not new or cannot be opened, and no file has changed. -/
theorem generate_cases {path : Option Path} (h : g.generate contract out = (after, .ok path)) :
    (path = some (g.modulePath out.output contract) ∧
        (g.source contract).qualifiedModule ∉ out.output.created ∧
        after.output = out.output.withCreated (g.source contract).qualifiedModule ∧
        ∃ bytes, g.bytes? out.output contract = some bytes ∧
          out.tree.Wrote (g.modulePath out.output contract) bytes after.tree) ∨
      (path = none ∧ after.output = out.output ∧ out.tree.Extends after.tree ∧
        ((g.source contract).qualifiedModule ∈ out.output.created ∨
          ∃ opened e, out.tree.openForWriting (g.modulePath out.output contract) =
            (opened, .error e))) := by
  rw [Generator.generate] at h
  rcases hwrite : out.output.writeModule out.tree (g.source contract).package
    (g.source contract).moduleName (g.source contract).render.toList with ⟨output, tree, result⟩
  simp only [hwrite] at h
  have hresult : ∀ e, result = .error (.text e) → e.isSystem = true := by
    rintro e rfl
    by_contra hsystem
    simp only [Bool.not_eq_true] at hsystem
    simp only [hsystem, Bool.false_eq_true, if_false] at h
    cases (Prod.mk.inj h).2
  rcases Output.of_writeModule hwrite hresult with
    ⟨rfl, hnew, houtput, hwrote⟩ | ⟨⟨e, rfl⟩, houtput, hext, hrefused⟩
  · obtain ⟨rfl, hpath⟩ := Prod.mk.inj h
    refine .inl ⟨?_, hnew, houtput, hwrote⟩
    rw [← Except.ok.inj hpath, houtput]
    rfl
  · refine .inr ?_
    cases e with
    | recreated name =>
      obtain ⟨rfl, hpath⟩ := Prod.mk.inj h
      exact ⟨(Except.ok.inj hpath).symm, houtput, hext, hrefused⟩
    | text e =>
      simp only [hresult e rfl, if_true] at h
      obtain ⟨rfl, hpath⟩ := Prod.mk.inj h
      exact ⟨(Except.ok.inj hpath).symm, houtput, hext, hrefused⟩

/-! ## Generating at a place that is taken -/

/-- Where the modules of an output stand. -/
def placeOf (output : Output) (name : String) : Path := output.sourceOutput.below (sourceFile name)

/-- The request that a module of a name is generated for: the first whose module has the name,
unless the module has been generated before. -/
def Generator.claimant? (g : Generator) (output : Output) (contracts : List Element)
    (name : String) : Option Element :=
  if output.created.contains name then none
  else contracts.find? fun contract => (g.source contract).qualifiedModule == name

section

variable {output : Output} {contracts rest : List Element} {name : String}

theorem claimant?_nil (g : Generator) (output : Output) (name : String) :
    g.claimant? output [] name = none := by
  rw [Generator.claimant?]
  split <;> rfl

theorem claimant?_of_created (h : name ∈ output.created) :
    g.claimant? output contracts name = none := by
  rw [Generator.claimant?, if_pos (List.contains_iff_mem.mpr h)]

theorem claimant?_of_new (h : name ∉ output.created) : g.claimant? output contracts name =
    contracts.find? fun contract => (g.source contract).qualifiedModule == name := by
  rw [Generator.claimant?, if_neg fun hmem => h (List.contains_iff_mem.mp hmem)]

theorem claimant?_congr {output' : Output} (h : name ∈ output.created ↔ name ∈ output'.created) :
    g.claimant? output contracts name = g.claimant? output' contracts name := by
  by_cases hcreated : name ∈ output.created
  · rw [claimant?_of_created hcreated, claimant?_of_created (h.mp hcreated)]
  · rw [claimant?_of_new hcreated, claimant?_of_new fun hmem => hcreated (h.mpr hmem)]

/-- The first request claims a name or leaves it to the others. -/
theorem claimant?_cons (g : Generator) (output : Output) (contract : Element)
    (rest : List Element) (name : String) :
    g.claimant? output (contract :: rest) name =
      (g.claimant? output [contract] name).or (g.claimant? output rest name) := by
  by_cases hcreated : name ∈ output.created
  · rw [claimant?_of_created hcreated, claimant?_of_created hcreated,
      claimant?_of_created hcreated]
    rfl
  · rw [claimant?_of_new hcreated, claimant?_of_new hcreated, claimant?_of_new hcreated,
      List.find?_cons, List.find?_singleton]
    cases (g.source contract).qualifiedModule == name <;> rfl

/-- The one who claims a name among one request is this one. -/
theorem claimant?_singleton (g : Generator) (output : Output) (contract : Element) (name : String) :
    g.claimant? output [contract] name =
      if name ∉ output.created ∧ (g.source contract).qualifiedModule = name then some contract
      else none := by
  by_cases hcreated : name ∈ output.created
  · rw [claimant?_of_created hcreated, if_neg fun h => h.1 hcreated]
  · rw [claimant?_of_new hcreated, List.find?_singleton]
    simp [hcreated]

theorem mem_of_claimant? (h : g.claimant? output contracts name = some contract) :
    name ∉ output.created ∧ contract ∈ contracts ∧
      (g.source contract).qualifiedModule = name := by
  rw [Generator.claimant?] at h
  split at h
  next => cases h
  next hnew =>
    have hname := List.find?_some h
    exact ⟨fun hmem => hnew (List.contains_iff_mem.mpr hmem), List.mem_of_find?_eq_some h,
      eq_of_beq hname⟩

/-- A name is claimed just when a module of the name is asked for that is new. -/
theorem isSome_claimant? : (g.claimant? output contracts name).isSome = true ↔
    name ∉ output.created ∧
      ∃ contract ∈ contracts, (g.source contract).qualifiedModule = name := by
  rw [Generator.claimant?]
  by_cases hcreated : name ∈ output.created
  · rw [if_pos (List.contains_iff_mem.mpr hcreated)]
    exact ⟨fun h => absurd h Bool.false_ne_true, fun h => absurd hcreated h.1⟩
  · rw [if_neg fun hmem => hcreated (List.contains_iff_mem.mp hmem), List.find?_isSome]
    simp [hcreated]

end

theorem reach_placeOf (tree : FileTree) (output : Output) (name : String) :
    tree.reach (placeOf output name) = tree.reach output.sourceOutput ++ sourceFile name :=
  FileTree.reach_below (dots_notMem_sourceFile name) tree output.sourceOutput

/-- Modules of different names have different places. -/
theorem reach_placeOf_ne {name name' : String} (h : name ≠ name') (tree : FileTree)
    (output : Output) : tree.reach (placeOf output name) ≠ tree.reach (placeOf output name') := by
  rw [reach_placeOf, reach_placeOf]
  exact fun heq => h (sourceFile_inj.mp (List.append_cancel_left heq))

/-- What becomes of the file of a module: the request that claims the name of the module
replaces it, and without one it is as it was. -/
def Settles (g : Generator) (output : Output) (p : Path) (content : List UInt8)
    (claimant : Option Element) (paths : List Path) (tree : FileTree) : Prop :=
  match claimant with
  | none => p ∉ paths ∧ tree.read p = .ok content
  | some contract => p ∈ paths ∧ ∃ bytes, g.bytes? output contract = some bytes ∧
      tree.read p = .ok bytes

/-- What settles a file once is not settled again. -/
theorem Settles.trans {output : Output} {p : Path} {content : List UInt8}
    {claimant later : Option Element} {paths more : List Path} {middle final : FileTree}
    (h : Settles g output p content claimant paths middle)
    (hlater : ∀ held, middle.read p = .ok held → Settles g output p held later more final)
    (honce : claimant.isSome = true → later = none) :
    Settles g output p content (claimant.or later) (paths ++ more) final := by
  cases claimant with
  | none =>
    have hfinal := hlater content h.2
    cases later with
    | none => exact ⟨fun hmem => (List.mem_append.mp hmem).elim h.1 hfinal.1, hfinal.2⟩
    | some contract => exact ⟨List.mem_append_right _ hfinal.1, hfinal.2⟩
  | some contract =>
    obtain ⟨hmem, bytes, hbytes, hread⟩ := h
    have hfinal := hlater bytes hread
    rw [honce rfl] at hfinal ⊢
    exact ⟨List.mem_append_left _ hmem, bytes, hbytes, hfinal.2⟩

section

variable {name : String} {content : List UInt8}

/-- **What one request does to a file that is there.** -/
theorem generate_at {path : Option Path} (hdotted : IsDotted contract.qualifiedName)
    (hread : out.tree.read (placeOf out.output name) = .ok content)
    (h : g.generate contract out = (after, .ok path)) :
    Settles g out.output (placeOf out.output name) content (g.claimant? out.output [contract] name)
      path.toList after.tree ∧
    (name ∈ after.output.created ↔
      name ∈ out.output.created ∨ (g.claimant? out.output [contract] name).isSome = true) := by
  have hplace : g.modulePath out.output contract =
      placeOf out.output (g.source contract).qualifiedModule :=
    Generator.modulePath_eq hdotted g out.output
  rw [claimant?_singleton]
  rcases generate_cases h with
    ⟨rfl, hnew, houtput, bytes, hbytes, hwrote⟩ | ⟨rfl, houtput, hext, hrefused⟩
  · rw [hplace] at hwrote ⊢
    by_cases hname : (g.source contract).qualifiedModule = name
    · subst hname
      rw [if_pos ⟨hnew, rfl⟩, houtput]
      exact ⟨⟨List.mem_singleton.mpr rfl, bytes, hbytes, hwrote.read⟩, by simp [Output.withCreated]⟩
    · rw [if_neg fun h => hname h.2, houtput]
      have hne := reach_placeOf_ne (Ne.symm hname) out.tree out.output
      refine ⟨⟨fun hmem => ?_, ?_⟩, ?_⟩
      · exact hne (congrArg out.tree.reach (List.mem_singleton.mp hmem))
      · refine hwrote.toKeeps.read hread ?_
        rw [hwrote.other _ hne]
        exact (FileTree.read_eq_ok.mp hread).2
      · simp [Output.withCreated, Ne.symm hname]
  · have hunclaimed : ¬ (name ∉ out.output.created ∧
        (g.source contract).qualifiedModule = name) := by
      rintro ⟨hnew, rfl⟩
      rcases hrefused with hcreated | ⟨opened, e, hopen⟩
      · exact hnew hcreated
      · -- The file is there, so that it could be opened.
        obtain ⟨written, hwritten⟩ := FileTree.exists_openForWriting hread
        rw [hplace, hwritten] at hopen
        cases (Prod.mk.inj hopen).2
    rw [if_neg hunclaimed, houtput]
    refine ⟨⟨List.not_mem_nil, hext.toKeeps.read hread ?_⟩, by simp⟩
    rw [hext.file]
    exact (FileTree.read_eq_ok.mp hread).2

/-- **What generating does to a file that is there.** -/
theorem generateAll_at {contracts : List Element} {paths : List Path}
    (hdotted : ∀ contract ∈ contracts, IsDotted contract.qualifiedName)
    (hread : out.tree.read (placeOf out.output name) = .ok content)
    (h : g.generateAll contracts out = (after, .ok paths)) :
    Settles g out.output (placeOf out.output name) content (g.claimant? out.output contracts name)
      paths after.tree := by
  -- By induction on the requests: the file is there before each of them, and what has been
  -- generated so far is not generated again.
  induction contracts generalizing out content paths with
  | nil =>
    cases h
    rw [claimant?_nil]
    exact ⟨List.not_mem_nil, hread⟩
  | cons contract rest ih =>
    rw [List.forall_mem_cons] at hdotted
    obtain ⟨next, path, more, hg, hrest, rfl⟩ := of_generateAll_cons_eq_ok h
    obtain ⟨hsettles, hcreated⟩ := generate_at hdotted.1 hread hg
    have hroots : next.output = { out.output with created := next.output.created } :=
      (of_generate_eq_ok hg).2.roots
    have hlater : ∀ held, next.tree.read (placeOf out.output name) = .ok held →
        Settles g out.output (placeOf out.output name) held (g.claimant? next.output rest name)
          more after.tree := by
      intro held hheld
      have hplace : placeOf next.output name = placeOf out.output name := by rw [hroots]; rfl
      have hbytes : g.bytes? next.output = g.bytes? out.output := by rw [hroots]; rfl
      have hfinal := ih hdotted.2 (hplace ▸ hheld) hrest
      rw [hplace] at hfinal
      simp only [Settles, hbytes] at hfinal ⊢
      exact hfinal
    have honce : (g.claimant? out.output [contract] name).isSome = true →
        g.claimant? next.output rest name = none :=
      fun hclaimed => claimant?_of_created (hcreated.mpr (.inr hclaimed))
    rw [claimant?_cons]
    cases hclaimant : g.claimant? out.output [contract] name with
    | some claimant =>
      rw [hclaimant] at hsettles honce
      have hall := hsettles.trans hlater honce
      rwa [Option.some_or] at hall ⊢
    | none =>
      -- The name is as free as before.
      rw [hclaimant] at hsettles hcreated
      have hsame : g.claimant? next.output rest name = g.claimant? out.output rest name :=
        claimant?_congr (hcreated.trans (or_iff_left Bool.false_ne_true))
      rw [hsame] at hlater
      exact hsettles.trans hlater fun hclaimed => absurd hclaimed Bool.false_ne_true

/-- The paths of generated modules are those of requests. -/
theorem exists_contract_of_mem {contracts : List Element} {paths : List Path}
    (h : g.generateAll contracts out = (after, .ok paths)) {q : Path} (hq : q ∈ paths) :
    ∃ contract ∈ contracts, q = g.modulePath out.output contract := by
  induction contracts generalizing out paths with
  | nil =>
    cases h
    cases hq
  | cons contract rest ih =>
    obtain ⟨next, path, more, hg, hrest, rfl⟩ := of_generateAll_cons_eq_ok h
    obtain ⟨hpath, hgenerated⟩ := of_generate_eq_ok hg
    rcases List.mem_append.mp hq with hq | hq
    · rw [hpath, Option.mem_toList] at hq
      cases hattempt : g.attempt contract out with
      | error message =>
        rw [hattempt] at hq
        cases hq
      | ok written =>
        rw [hattempt] at hq
        obtain rfl : written = q := Option.some.inj hq
        exact ⟨contract, List.mem_cons_self, eq_modulePath_of_attempt hattempt⟩
    · have hroots : next.output = { out.output with created := next.output.created } :=
        hgenerated.roots
      obtain ⟨later, hlater, hplace⟩ := ih hrest hq
      refine ⟨later, List.mem_cons_of_mem _ hlater, hplace.trans ?_⟩
      rw [hroots]
      rfl

/-- The files that make directories packages are not generated. -/
theorem generateAll_package {contracts : List Element} {paths : List Path}
    {directories : List String} (hdirectories : ".." ∉ directories ++ ["__init__.py"])
    (hdotted : ∀ contract ∈ contracts, IsDotted contract.qualifiedName)
    (hread : out.tree.read (out.output.sourceOutput.below (directories ++ ["__init__.py"])) =
      .ok content)
    (h : g.generateAll contracts out = (after, .ok paths)) :
    Settles g out.output (out.output.sourceOutput.below (directories ++ ["__init__.py"])) content
      none paths after.tree := by
  have hapart : ∀ q ∈ paths, out.tree.reach q ≠
      out.tree.reach (out.output.sourceOutput.below (directories ++ ["__init__.py"])) := by
    intro q hq
    obtain ⟨contract, hcontract, rfl⟩ := exists_contract_of_mem h hq
    have hplace : g.modulePath out.output contract =
        placeOf out.output (g.source contract).qualifiedModule :=
      Generator.modulePath_eq (hdotted _ hcontract) g out.output
    rw [hplace, reach_placeOf, FileTree.reach_below hdirectories]
    exact fun heq => sourceFile_ne_package (hdotted _ hcontract) g directories
      (List.append_cancel_left heq)
  have hgenerated := (of_generateAll_eq_ok h).2
  refine ⟨fun hmem => hapart _ hmem rfl, hgenerated.keeps.read hread ?_⟩
  rw [hgenerated.file _ hapart]
  exact (FileTree.read_eq_ok.mp hread).2

end

end Factory

/-! ## Sources among the modules of the output -/

namespace FinishedRound

variable {r : FinishedRound}

/-- What a round has written before it generates modules. -/
def written (r : FinishedRound) : Work := registryWork r.output r.asked r.bindings

/-- The round writes registry files before it generates, and files stay files. -/
theorem exists_read_written {p : Path} {content : List UInt8}
    (h : r.start.world.files.read p = .ok content) :
    ∃ held, r.written.tree.read p = .ok held := by
  obtain ⟨hfiles, hfinished⟩ := r.finished
  obtain ⟨tree, reports, hwrite, hwork⟩ := hfinished.writeEntries_eq
  obtain ⟨hkeeps, -, -, hfile⟩ := of_writeEntries_eq_ok hwrite
  rw [hfiles] at hkeeps hfile
  have htree : r.written.tree = tree := congrArg (·.tree) hwork
  rw [htree]
  have hlocation := hfile (r.start.world.files.reach p)
  split at hlocation
  next t hlast =>
    -- The file is also that of an entry, which has been written there.
    have hopened := List.mem_reverse.mp (List.mem_of_find?_eq_some hlast)
    obtain ⟨ht, hrefusal⟩ := List.mem_filter.mp hopened
    have hcompletes := hfinished.completes t (hfiles ▸ ht)
    rw [Turn.completes, Option.isNone_iff_eq_none.mp hrefusal] at hcompletes
    obtain ⟨bytes, hbytes⟩ := Option.isSome_iff_exists.mp hcompletes
    exact ⟨bytes, hkeeps.read h (hlocation.trans hbytes)⟩
  next => exact ⟨content, hkeeps.read h (hlocation.trans (FileTree.read_eq_ok.mp h).2)⟩

end FinishedRound

section

variable {r : FinishedRound} {model scanned : StaticModel} {tree : FileTree}
  {reports reports' : Reports} {name : String} {m : SourceModule} (hscope : model.scope = {})
  (helements : model.elements = none)
  (hscan : model.scan tree reports = (scanned, reports', .ok ()))

include hscope helements hscan

-- The round scans for itself, or keeps to what has been scanned before.
variable (hmodel : r.start.model = .static model ∨ r.start.model = .static scanned)

include hmodel

/-- The contracts that a round generates factories for have dotted names. -/
theorem isDotted_of_mem_requests :
    ∀ contract ∈ r.outcome.requests, IsDotted contract.qualifiedName := by
  intro contract hcontract
  rw [r.finished.2.requests] at hcontract
  obtain ⟨b, hb, -, rfl⟩ := exists_binding_of_mem_requestedFactories hcontract
  rcases hmodel with hmodel | hmodel
  · exact (r.isDotted_of_mem_bindings hmodel
      (StaticModel.wellNamed_of_empty hscope helements) b hb).1
  · exact (r.isDotted_of_mem_bindings hmodel
      (StaticModel.wellNamed_of_scan hscope helements hscan) b hb).1

variable (hroots : model.roots = [r.output.sourceOutput])
  (hm : (name, m) ∈ scanned.scope.modules)
  (hthere : ∃ content, r.start.world.files.read m.path = .ok content)

include hroots hm hthere

/-- What the generating of a round does to a module that has been scanned. -/
theorem settles_source : ∃ content, r.written.tree.read m.path = .ok content ∧
    Settles r.processor.generator r.output m.path content
      (if m.isPackage then none
        else r.processor.generator.claimant? r.output r.outcome.requests m.name)
      r.outcome.generatedSources r.finish.world.files := by
  obtain ⟨root, components, statements, hread⟩ :=
    (StaticModel.grown_of_scan hscope helements hscan).isRead _ hm
  obtain rfl : root = r.output.sourceOutput := by
    have hroot := hread.root_mem
    rw [hroots] at hroot
    exact List.mem_singleton.mp hroot
  have hscanned := StaticModel.isScanned_of_mem_filesBelow hread.components_mem
  have hpath : m.path = r.output.sourceOutput.below components := hread.path
  obtain ⟨content, hcontent⟩ := hthere
  obtain ⟨held, hheld⟩ := r.exists_read_written hcontent
  have hdotted := isDotted_of_mem_requests hscope helements hscan hmodel
  have hgenerating := r.finished.2.generating
  refine ⟨held, hheld, ?_⟩
  have hname := hread.moduleName
  cases hpackage : m.isPackage with
  | true =>
    rw [hpackage] at hname
    have hcomponents := StaticModel.components_of_package hscanned hname
    rw [hpath, hcomponents] at hheld ⊢
    rw [if_pos rfl]
    have hdirectories : ".." ∉ dottedParts m.name ++ ["__init__.py"] := by
      rw [List.mem_append, not_or]
      exact ⟨dots_notMem_dottedParts m.name, by decide⟩
    exact generateAll_package hdirectories hdotted hheld hgenerating
  | false =>
    rw [hpackage] at hname
    have hcomponents := StaticModel.components_eq_sourceFile hscanned hname
    rw [hpath, hcomponents] at hheld ⊢
    rw [if_neg Bool.false_ne_true]
    exact generateAll_at hdotted hheld hgenerating

/-- A source in whose place a module is generated is a plain one, and holds the factory of a
contract that asks for a module of this name. -/
theorem of_mem_generatedSources (h : m.path ∈ r.outcome.generatedSources) :
    (m.isPackage = false ∧ m.name ∉ r.output.created) ∧ ∃ contract ∈ r.outcome.requests,
      (r.processor.generator.source contract).qualifiedModule = m.name ∧
        ∃ bytes, r.processor.generator.bytes? r.output contract = some bytes ∧
          r.finish.world.files.read m.path = .ok bytes := by
  obtain ⟨content, -, hsettles⟩ := settles_source hscope helements hscan hmodel hroots hm hthere
  by_cases hpackage : m.isPackage = true
  · rw [if_pos hpackage] at hsettles
    exact absurd h hsettles.1
  · rw [if_neg hpackage] at hsettles
    cases hclaimant : r.processor.generator.claimant? r.output r.outcome.requests m.name with
    | none =>
      rw [hclaimant] at hsettles
      exact absurd h hsettles.1
    | some contract =>
      rw [hclaimant] at hsettles
      obtain ⟨hnew, hcontract, hname⟩ := mem_of_claimant? hclaimant
      exact ⟨⟨Bool.eq_false_iff.mpr hpackage, hnew⟩, contract, hcontract, hname, hsettles.2⟩

/-- A plain module that a factory is asked for with the name of is replaced. -/
theorem mem_generatedSources (hplain : m.isPackage = false) (hnew : m.name ∉ r.output.created)
    (hrequest : ∃ contract ∈ r.outcome.requests,
      (r.processor.generator.source contract).qualifiedModule = m.name) :
    m.path ∈ r.outcome.generatedSources := by
  obtain ⟨content, -, hsettles⟩ := settles_source hscope helements hscan hmodel hroots hm hthere
  obtain ⟨contract, hclaimant⟩ := Option.isSome_iff_exists.mp
    (isSome_claimant?.mpr ⟨hnew, hrequest⟩)
  rw [hplain, if_neg Bool.false_ne_true, hclaimant] at hsettles
  exact hsettles.1

/-- A source in whose place no module is generated is as it was. -/
theorem read_of_notMem_generatedSources (h : m.path ∉ r.outcome.generatedSources) :
    r.finish.world.files.read m.path = r.written.tree.read m.path := by
  obtain ⟨content, hcontent, hsettles⟩ :=
    settles_source hscope helements hscan hmodel hroots hm hthere
  cases hclaimant : if m.isPackage then none
      else r.processor.generator.claimant? r.output r.outcome.requests m.name with
  | none =>
    rw [hclaimant] at hsettles
    exact hsettles.2.trans hcontent.symm
  | some contract =>
    rw [hclaimant] at hsettles
    exact absurd hsettles.1 h

/-- **Which sources a round replaces**, when it generates into the root that has been scanned:
the plain modules that a factory is asked for with the name of, whatever they hold. Each of
these holds a factory afterwards, and the generating leaves all others alone. The module that
declares the contract of the factory is no exception. -/
theorem sources_replaced :
    (m.path ∈ r.outcome.generatedSources ↔ m.isPackage = false ∧ m.name ∉ r.output.created ∧
      ∃ contract ∈ r.outcome.requests,
        (r.processor.generator.source contract).qualifiedModule = m.name) ∧
    (m.path ∉ r.outcome.generatedSources →
      r.finish.world.files.read m.path = r.written.tree.read m.path) ∧
    (m.path ∈ r.outcome.generatedSources → ∃ contract ∈ r.outcome.requests,
      (r.processor.generator.source contract).qualifiedModule = m.name ∧
        ∃ bytes, r.processor.generator.bytes? r.output contract = some bytes ∧
          r.finish.world.files.read m.path = .ok bytes) ∧
    ∀ contract ∈ r.outcome.requests, contract.module = m.name →
      ((r.processor.generator.source contract).qualifiedModule = m.name ↔
        contract.isPackage = false ∧
          Naming.factoryModule contract.simpleName = (splitLastDot m.name).2) := by
  have hreplaced := of_mem_generatedSources hscope helements hscan hmodel hroots hm hthere
  refine ⟨⟨fun h => ?_, fun ⟨hplain, hnew, hrequest⟩ => ?_⟩,
    read_of_notMem_generatedSources hscope helements hscan hmodel hroots hm hthere,
    fun h => (hreplaced h).2, ?_⟩
  · obtain ⟨⟨hplain, hnew⟩, contract, hcontract, hname, -⟩ := hreplaced h
    exact ⟨hplain, hnew, contract, hcontract, hname⟩
  · exact mem_generatedSources hscope helements hscan hmodel hroots hm hthere hplain hnew hrequest
  · rintro contract - hmodule
    obtain ⟨root, components, statements, hread⟩ :=
      (StaticModel.grown_of_scan hscope helements hscan).isRead _ hm
    have hdotted := StaticModel.isDotted_moduleName? hread.moduleName
    rw [← hmodule] at hdotted ⊢
    exact qualifiedModule_eq_module_iff r.processor.generator hdotted

end

/-! ### A contract in a module that is named like its factory -/

/-- A contract with a provider that asks for a factory. -/
def pluginSource : List Char :=
  "class P:0\n@p(P,generate_factory=True)\nclass I(P):0\n".toList

/-- The file of the source. -/
def pluginPath (stem : String) : Path := ⟨.none, ["q", stem ++ ".py"]⟩

def pluginModel : StaticModel where
  roots := [⟨.none, ["q"]⟩]
  ignoreDirs := []
  encoding := "utf-8"

/-- A session over the source. -/
def pluginSession (stem : String) : Session where
  model := .static pluginModel
  world := {
    files := ⟨[], [(["q"], .directory),
      (["q", stem ++ ".py"], .file (Text.utf8Bytes pluginSource))]⟩
    modules := []
    classes := #[] }

/-- An output among the sources. -/
def pluginOutput : Output where
  classOutput := ⟨.none, ["q"]⟩
  sourceOutput := ⟨.none, ["q"]⟩
  servicesDir := Naming.servicesDir
  encoding := "utf-8"

def pluginRound? (stem : String) : Option FinishedRound :=
  FinishedRound.run? ⟨["p"], ⟨"g", ""⟩⟩ pluginOutput (pluginSession stem)

/-- The scan of a round over the source. -/
def pluginScan (stem : String) : StaticModel × Reports × Except ScanFault Unit :=
  pluginModel.scan (pluginSession stem).world.files {}

def besideRound : FinishedRound := (pluginRound? "m").get (by decide +kernel)

def replacingRound : FinishedRound := (pluginRound? "p_factory").get (by decide +kernel)

theorem besideRound_given :
    besideRound.output = pluginOutput ∧ besideRound.start = pluginSession "m" :=
  (FinishedRound.of_run?_eq_some (Option.some_get _).symm).2

theorem replacingRound_given :
    replacingRound.output = pluginOutput ∧ replacingRound.start = pluginSession "p_factory" :=
  (FinishedRound.of_run?_eq_some (Option.some_get _).symm).2

/-- The scan ends well, and reads the source. -/
def ReadsPlugin (stem : String) : Prop :=
  (pluginScan stem).2.2.isOk = true ∧
    ((pluginScan stem).1.scope.modules.lookup stem).map (·.path) = some (pluginPath stem)

instance (stem : String) : Decidable (ReadsPlugin stem) := inferInstanceAs (Decidable (_ ∧ _))

theorem ReadsPlugin.exists_module {stem : String} (h : ReadsPlugin stem) :
    ∃ m, (stem, m) ∈ (pluginScan stem).1.scope.modules ∧ m.path = pluginPath stem := by
  obtain ⟨m, hm, hpath⟩ := Option.map_eq_some_iff.mp h.2
  exact ⟨m, Table.mem_of_lookup hm, hpath⟩

/-- The source is left alone when the factory stands beside it. -/
theorem sources_replaced_beside : ∃ m, ("m", m) ∈ (pluginScan "m").1.scope.modules ∧
    m.path = pluginPath "m" ∧
    besideRound.outcome.generatedSources = [pluginPath "p_factory"] ∧
    besideRound.finish.world.files.read m.path = besideRound.written.tree.read m.path := by
  obtain ⟨houtput, hstart⟩ := besideRound_given
  have hreads : ReadsPlugin "m" := by decide +kernel
  obtain ⟨m, hm, hpath⟩ := hreads.exists_module
  have hgenerated : besideRound.outcome.generatedSources = [pluginPath "p_factory"] := by
    decide +kernel
  refine ⟨m, hm, hpath, hgenerated, ?_⟩
  have hmodel : besideRound.start.model = .static pluginModel := by rw [hstart]; rfl
  have hscan : pluginModel.scan (pluginSession "m").world.files {} =
      ((pluginScan "m").1, (pluginScan "m").2.1, .ok ()) := StaticModel.eq_of_isOk hreads.1
  have hreplaced := sources_replaced rfl rfl hscan (.inl hmodel) (by rw [houtput]; rfl) hm
    (by rw [hstart]; exact (StaticModel.grown_of_scan rfl rfl hscan).exists_read hm)
  refine hreplaced.2.1 ?_
  rw [hgenerated, hpath]
  decide

/-- A factory module starts with a comment. -/
theorem head?_render (s : Source) : s.render.toList.head? = some '#' := by
  rw [Source.render, Source.lines, List.map_cons, String.join_cons]
  simp only [String.toList_append, List.append_assoc]
  rfl

theorem head?_bytes? {g : Generator} {contract : Element} {bytes : List UInt8}
    (h : g.bytes? pluginOutput contract = some bytes) : bytes.head? = some 35 := by
  obtain ⟨rest, hrest⟩ := List.head?_eq_some_iff.mp (head?_render (g.source contract))
  have hencoded : pluginOutput.encoded? (g.source contract).render.toList =
      some (Text.utf8Bytes (g.source contract).render.toList) := rfl
  rw [Generator.bytes?, hencoded, hrest] at h
  exact Option.some.inj h ▸ rfl

/-- The module that declares the contract is replaced by the factory of the contract. -/
theorem contract_replaced :
    ¬ ∀ (r : FinishedRound) (model scanned : StaticModel) (reports : Reports) (name : String)
      (m : SourceModule),
      r.start.model = .static model → model.scope = {} → model.elements = none →
      model.roots = [r.output.sourceOutput] →
      model.scan r.start.world.files r.start.reports = (scanned, reports, .ok ()) →
      (name, m) ∈ scanned.scope.modules →
      r.finish.world.files.read m.path = r.written.tree.read m.path ∨
        ∃ contract ∈ r.outcome.requests, ∃ (g : Generator) (bytes : List UInt8),
          g.bytes? r.output contract = some bytes ∧ r.written.tree.read m.path = .ok bytes := by
  intro h
  obtain ⟨houtput, hstart⟩ := replacingRound_given
  have hreads : ReadsPlugin "p_factory" := by decide +kernel
  obtain ⟨m, hm, hpath⟩ := hreads.exists_module
  have hmodel : replacingRound.start.model = .static pluginModel := by rw [hstart]; rfl
  have hroots : pluginModel.roots = [replacingRound.output.sourceOutput] := by rw [houtput]; rfl
  have hscan : pluginModel.scan replacingRound.start.world.files replacingRound.start.reports =
      ((pluginScan "p_factory").1, (pluginScan "p_factory").2.1, .ok ()) := by
    rw [hstart]
    exact StaticModel.eq_of_isOk hreads.1
  -- What is generated starts like a comment, and the source starts like a class statement.
  have hbefore : (replacingRound.written.tree.read m.path).toOption.bind List.head? =
      some 99 := by
    rw [hpath]
    decide +kernel
  have hgenerated : m.path ∈ replacingRound.outcome.generatedSources := by
    rw [hpath]
    decide +kernel
  rcases h replacingRound pluginModel _ _ "p_factory" m hmodel rfl rfl hroots hscan hm with
    hsame | ⟨contract, -, g, bytes, hbytes, hread⟩
  · obtain ⟨-, contract, -, -, bytes, hbytes, hread⟩ :=
      of_mem_generatedSources rfl rfl hscan (.inl hmodel) hroots hm
        ((StaticModel.grown_of_scan rfl rfl hscan).exists_read hm) hgenerated
    rw [houtput] at hbytes
    rw [← hsame, hread, Except.toOption, Option.bind_some, head?_bytes? hbytes] at hbefore
    exact absurd hbefore (by decide)
  · rw [houtput] at hbytes
    rw [hread, Except.toOption, Option.bind_some, head?_bytes? hbytes] at hbefore
    exact absurd hbefore (by decide)

end ProviderRegistry
