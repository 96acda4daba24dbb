import ProviderRegistry.Proofs.Opening

/-!
# One factory module for each name

Requests for factories share a module when it has the same name for their contracts. The first
request of a name writes the module and returns its path; every later one is refused and reported
with its own contract, and the file stays as the first one wrote it (`one_module_per_name`).
Files of modules are named by dotted names and a suffix with a dot, so that none is on the way to
another; what could be opened for writing before a run can therefore be opened throughout it.
-/

namespace ProviderRegistry.Factory

open Registry

variable {g : Generator} {out middle : Work} {contract : Element} {requests : List Element}
  {output : Output} {tree : FileTree} {name name' : String}

/-- The bytes of the factory module of a contract in UTF-8. -/
def Generator.content (g : Generator) (contract : Element) : List UInt8 :=
  Text.utf8Bytes (g.source contract).render.toList

/-! ## Files of modules side by side -/

/-- The way to a module does not pass where another one stands that can be opened. -/
theorem not_visits_placeOf (h : tree.Opens (placeOf output name)) :
    ¬ tree.Visits (placeOf output name').parent (tree.reach (placeOf output name)) := by
  have hparent (n : String) : (placeOf output n).parent.parts =
      output.sourceOutput.parts ++ (dottedParts n).dropLast := by
    rw [placeOf, Path.below, Path.parent, sourceFile, ← List.append_assoc, List.dropLast_concat]
  rintro ⟨init, hinit, hl⟩
  rw [hparent] at hinit
  rcases List.prefix_or_prefix_of_prefix hinit (List.prefix_append _ _) with hroot | ⟨c, rfl⟩
  · -- The root is on the way to both modules.
    have hroot' : init <+: (placeOf output name).parent.parts := by
      rw [hparent]
      exact hroot.trans (List.prefix_append _ _)
    exact h.apart ⟨init, hroot', hl⟩
  · -- Below the root there are directories with names that have no dots.
    rw [List.prefix_append_right_inj] at hinit
    have hpart : ∀ part ∈ c, part ∈ dottedParts name' := fun part hmem =>
      List.dropLast_subset _ (hinit.subset hmem)
    have hdots : ".." ∉ c := fun hmem => dots_notMem_dottedParts name' (hpart _ hmem)
    have hreach : tree.reach (output.sourceOutput.below c) = tree.reach (placeOf output name) := hl
    rw [reach_placeOf, FileTree.reach_below hdots, List.append_cancel_left_eq, sourceFile] at hreach
    have hlast : (dottedParts name).getLastD "" ++ ".py" ∈ dottedParts name' := by
      refine hpart _ ?_
      rw [hreach]
      exact List.mem_append_right _ (List.mem_singleton.mpr rfl)
    refine dot_notMem_of_mem hlast ?_
    rw [String.toList_append, List.mem_append]
    exact .inr (by decide)

/-! ## One request -/

/-- A request whose module has been created is refused, and nothing else changes. -/
theorem generate_again (hmem : (g.source contract).qualifiedModule ∈ out.output.created) :
    g.generate contract out = (out.refuse contract
      (OutputError.recreated (g.source contract).qualifiedModule).message, .ok none) := by
  have hwrite : out.output.writeModule out.tree (g.source contract).package
      (g.source contract).moduleName (g.source contract).render.toList =
      (out.output, out.tree, .error (.recreated (g.source contract).qualifiedModule)) := by
    rw [Output.writeModule]
    exact if_pos (List.contains_iff_mem.mpr hmem)
  rw [Generator.generate, hwrite]

/-- A request whose module is new writes it, if the file can be opened. -/
theorem generate_new (hencoding : Text.Encoding.ofName? out.output.encoding = some .utf8)
    (hopen : ∃ opened, out.tree.openForWriting (g.modulePath out.output contract) =
      (opened, .ok ()))
    (hnew : (g.source contract).qualifiedModule ∉ out.output.created) :
    ∃ after, g.generate contract out = (after, .ok (some (g.modulePath out.output contract))) ∧
      after.output = out.output.withCreated (g.source contract).qualifiedModule ∧
      after.reports = out.reports ∧
      out.tree.Puts (g.modulePath out.output contract) (g.content contract) after.tree := by
  obtain ⟨opened, hopened⟩ := hopen
  obtain ⟨written, hwritten, -⟩ :=
    (FileTree.wrote_of_openForWriting_ok hopened).write (g.content contract)
  have hboth : Output.openAndWrite out.tree (g.modulePath out.output contract)
      out.output.encoding (g.source contract).render.toList = (true, written, .ok ()) := by
    rw [Output.openAndWrite, hopened]
    simp only [hencoding, Text.encode]
    rw [← Generator.content, hwritten]
  have hwrite : out.output.writeModule out.tree (g.source contract).package
      (g.source contract).moduleName (g.source contract).render.toList =
      (out.output.withCreated (g.source contract).qualifiedModule, written, .ok ()) := by
    rw [Output.writeModule, ← Generator.modulePath, hboth]
    exact if_neg fun hmem => hnew (List.contains_iff_mem.mp hmem)
  refine ⟨⟨out.output.withCreated (g.source contract).qualifiedModule, written, out.reports⟩, ?_,
    rfl, rfl, FileTree.puts_of_openForWriting hopened hwritten⟩
  rw [Generator.generate, hwrite]
  rfl

/-! ## All requests -/

/-- A request after others has its turn where they end. -/
theorem generateAll_concat {paths : List Path} {next : Work} {path : Option Path}
    (hall : g.generateAll requests out = (middle, .ok paths))
    (hone : g.generate contract middle = (next, .ok path)) :
    g.generateAll (requests ++ [contract]) out = (next, .ok (paths ++ path.toList)) := by
  induction requests generalizing out paths with
  | nil =>
    obtain ⟨rfl, hpaths⟩ := Prod.mk.inj hall
    obtain rfl := Except.ok.inj hpaths
    rw [List.nil_append, Generator.generateAll, hone]
    simp [Generator.generateAll, Except.map]
  | cons first rest ih =>
    obtain ⟨after, path', more, hfirst, hrest, rfl⟩ := of_generateAll_cons_eq_ok hall
    rw [List.cons_append, Generator.generateAll, hfirst]
    simp only [ih hrest, Except.map, List.append_assoc]

/-- The first of some requests whose module has a name. -/
def Generator.firstOf (g : Generator) (requests : List Element) (name : String) : Option Element :=
  requests.find? fun contract => (g.source contract).qualifiedModule == name

/-- What is so after some requests: the names of their modules have been created, the first request
of each name has written its module, and what could be opened before can be opened still. -/
structure Handled (g : Generator) (out : Work) (requests : List Element) (middle : Work) :
    Prop where
  roots : SameRoots out.output middle.output
  created : ∀ name, name ∈ middle.output.created ↔ (g.firstOf requests name).isSome = true
  nested : middle.tree.Nested
  keeps : out.tree.Keeps middle.tree
  opens : ∀ name, out.tree.Opens (placeOf out.output name) →
    middle.tree.Opens (placeOf out.output name)
  file : ∀ name first, g.firstOf requests name = some first →
    middle.tree.read (placeOf out.output name) = .ok (g.content first)

/-- How a request is answered: one without an earlier request for its module writes it, and one
with an earlier request is refused and reported, and leaves the module of that one alone. -/
def Answers (g : Generator) (output : Output) (earlier : Option Element) (contract : Element)
    (middle next : Work) (path : Option Path) : Prop :=
  match earlier with
  | none => path = some (g.modulePath output contract) ∧ next.reports = middle.reports ∧
      middle.tree.Wrote (g.modulePath output contract) (g.content contract) next.tree
  | some first => path = none ∧ next.tree = middle.tree ∧
      next.reports.diagnostics = middle.reports.diagnostics ++ [{
        message := "Error generating factory class: " ++
          (OutputError.recreated (g.source contract).qualifiedModule).message
        element := contract }] ∧
      middle.tree.read (g.modulePath output contract) = .ok (g.content first)

theorem firstOf_concat (g : Generator) (requests : List Element) (contract : Element)
    (name : String) : g.firstOf (requests ++ [contract]) name =
      (g.firstOf requests name).or
        (if (g.source contract).qualifiedModule = name then some contract else none) := by
  rw [Generator.firstOf, Generator.firstOf, List.find?_append, List.find?_singleton]
  simp

namespace Handled

theorem nil (g : Generator) (hfresh : out.output.created = []) (hnested : out.tree.Nested) :
    Handled g out [] out := by
  refine ⟨rfl, fun name => ?_, hnested, .refl _, fun _ h => h, fun name first hfirst => ?_⟩
  · rw [hfresh]
    simp [Generator.firstOf]
  · cases hfirst

variable (h : Handled g out requests middle)

include h

theorem modulePath_eq (contract : Element) :
    g.modulePath middle.output contract = g.modulePath out.output contract := by
  have hroots := h.roots
  rw [SameRoots] at hroots
  rw [hroots]
  rfl

/-- A module that has been requested before is refused, and all stays as it is. -/
theorem again {first : Element}
    (hfirst : g.firstOf requests (g.source contract).qualifiedModule = some first) (message : String) :
    Handled g out (requests ++ [contract]) (middle.refuse contract message) := by
  have hsame (name : String) : g.firstOf (requests ++ [contract]) name = g.firstOf requests name := by
    rw [firstOf_concat]
    split
    next hname => rw [← hname, hfirst, Option.some_or]
    next => rw [Option.or_none]
  refine ⟨h.roots, fun name => ?_, h.nested, h.keeps, h.opens, fun name first hname => ?_⟩
  · rw [hsame]
    exact h.created name
  · exact h.file name first (hsame name ▸ hname)

/-- A module that is new has been written, and those before it stay as they are. -/
theorem new {next : Work} (hdotted : IsDotted contract.qualifiedName)
    (hopens : out.tree.Opens (g.modulePath out.output contract))
    (hnone : g.firstOf requests (g.source contract).qualifiedModule = none)
    (houtput : next.output = middle.output.withCreated (g.source contract).qualifiedModule)
    (hputs : middle.tree.Puts (g.modulePath out.output contract) (g.content contract) next.tree) :
    Handled g out (requests ++ [contract]) next := by
  have hplace := Generator.modulePath_eq hdotted g out.output
  rw [← placeOf] at hplace
  rw [hplace] at hputs hopens
  refine ⟨?_, fun name => ?_, hputs.nested h.nested, h.keeps.trans hputs.toKeeps,
    fun name hname => ?_, fun name first hfirst => ?_⟩
  · rw [houtput, SameRoots, h.roots]
    rfl
  · rw [houtput, Output.withCreated, List.mem_append, List.mem_singleton, h.created, firstOf_concat,
      Option.isSome_or, Bool.or_eq_true]
    refine or_congr_right ?_
    by_cases hname : (g.source contract).qualifiedModule = name
    · simp [hname]
    · simp [hname, Ne.symm hname]
  · exact (h.opens name hname).puts hputs (not_visits_placeOf (h.opens _ hopens))
      (not_visits_placeOf (h.opens name hname))
  · rw [firstOf_concat] at hfirst
    by_cases hname : (g.source contract).qualifiedModule = name
    · subst hname
      rw [hnone, if_pos rfl, Option.none_or, Option.some.injEq] at hfirst
      rw [← hfirst]
      exact hputs.read
    · -- The file of another name stands somewhere else.
      rw [if_neg hname, Option.or_none] at hfirst
      have hread := h.file name first hfirst
      refine hputs.toKeeps.read hread ?_
      rw [hputs.other _ (reach_placeOf_ne (Ne.symm hname) middle.tree out.output)]
      exact (FileTree.read_eq_ok.mp hread).2

/-- **One request after others.** -/
theorem step (hdotted : IsDotted contract.qualifiedName)
    (hencoding : Text.Encoding.ofName? out.output.encoding = some .utf8)
    (hopens : out.tree.Opens (g.modulePath out.output contract)) :
    ∃ next path, g.generate contract middle = (next, .ok path) ∧
      Answers g out.output (g.firstOf requests (g.source contract).qualifiedModule) contract middle
        next path ∧
      Handled g out (requests ++ [contract]) next := by
  have hplace := Generator.modulePath_eq hdotted g out.output
  rw [← placeOf] at hplace
  have hcreated := h.created (g.source contract).qualifiedModule
  cases hfirst : g.firstOf requests (g.source contract).qualifiedModule with
  | some first =>
    rw [hfirst, Option.isSome_some, eq_self_iff_true, iff_true] at hcreated
    refine ⟨_, none, generate_again hcreated, ⟨rfl, rfl, rfl, ?_⟩, h.again hfirst _⟩
    rw [hplace]
    exact h.file _ first hfirst
  | none =>
    rw [hfirst, Option.isSome_none, Bool.false_eq_true, iff_false] at hcreated
    have hencoding' : Text.Encoding.ofName? middle.output.encoding = some .utf8 := by
      rw [h.roots]
      exact hencoding
    have hopen : ∃ opened, middle.tree.openForWriting (g.modulePath middle.output contract) =
        (opened, .ok ()) := by
      rw [hplace] at hopens
      rw [h.modulePath_eq, h.nested.exists_openForWriting_iff, hplace]
      exact h.opens _ hopens
    obtain ⟨next, hgenerate, houtput, hreports, hputs⟩ :=
      generate_new hencoding' hopen hcreated
    rw [h.modulePath_eq] at hgenerate hputs
    exact ⟨next, _, hgenerate, ⟨rfl, hreports, hputs.toWrote⟩,
      h.new hdotted hopens hfirst houtput hputs⟩

end Handled

section

variable {contracts : List Element} (hdotted : ∀ c ∈ contracts, IsDotted c.qualifiedName)
  (hfresh : out.output.created = [])
  (hencoding : Text.Encoding.ofName? out.output.encoding = some .utf8)
  (htree : out.tree.WellFormed)
  (hwritable : ∀ c ∈ contracts, ∃ opened,
    out.tree.openForWriting (g.modulePath out.output c) = (opened, .ok ()))

include hdotted hfresh hencoding htree hwritable

/-- Requests that are handled in turn all end well. -/
theorem handled_generateAll :
    ∃ after paths, g.generateAll contracts out = (after, .ok paths) ∧
      Handled g out contracts after := by
  -- By induction on the requests from their end: the last one finds what the others leave.
  induction contracts using List.reverseRecOn with
  | nil => exact ⟨out, [], rfl, .nil g hfresh htree.nested⟩
  | append_singleton before contract ih =>
    rw [List.forall_mem_append, List.forall_mem_singleton] at hdotted hwritable
    obtain ⟨middle, paths, hall, hhandled⟩ := ih hdotted.1 hwritable.1
    have hopens := htree.nested.exists_openForWriting_iff.mp hwritable.2
    obtain ⟨next, path, hgenerate, -, hnext⟩ := hhandled.step hdotted.2 hencoding hopens
    exact ⟨next, _, generateAll_concat hall hgenerate, hnext⟩

/-- **One factory module for each name.** Requests that are handled in turn, where the file of
each could be opened for writing at the start, all end well. The first one for a module writes it
and returns its path; every later one for the module returns nothing, adds one error with its own
contract and leaves the file as the first one wrote it. In the end the file of every request holds
what the first request for its module wrote, and modules of different names stand in different
files. -/
theorem one_module_per_name :
    (∀ before contract rest, contracts = before ++ contract :: rest →
      ∃ middle made next path, g.generateAll before out = (middle, .ok made) ∧
        g.generate contract middle = (next, .ok path) ∧
        Answers g out.output (g.firstOf before (g.source contract).qualifiedModule) contract middle
          next path) ∧
    (∃ after paths, g.generateAll contracts out = (after, .ok paths) ∧
      ∀ contract ∈ contracts, ∃ first ∈ contracts,
        g.firstOf contracts (g.source contract).qualifiedModule = some first ∧
        after.tree.read (g.modulePath out.output contract) = .ok (g.content first)) ∧
    ∀ c ∈ contracts, ∀ d ∈ contracts,
      (out.tree.reach (g.modulePath out.output c) = out.tree.reach (g.modulePath out.output d) ↔
        (g.source c).qualifiedModule = (g.source d).qualifiedModule) := by
  refine ⟨?_, ?_, ?_⟩
  · rintro before contract rest rfl
    rw [List.forall_mem_append, List.forall_mem_cons] at hdotted hwritable
    obtain ⟨middle, made, hall, hhandled⟩ :=
      handled_generateAll hdotted.1 hfresh hencoding htree hwritable.1
    have hopens := htree.nested.exists_openForWriting_iff.mp hwritable.2.1
    obtain ⟨next, path, hgenerate, hanswers, -⟩ := hhandled.step hdotted.2.1 hencoding hopens
    exact ⟨middle, made, next, path, hall, hgenerate, hanswers⟩
  · obtain ⟨after, paths, hall, hhandled⟩ :=
      handled_generateAll hdotted hfresh hencoding htree hwritable
    refine ⟨after, paths, hall, fun contract hcontract => ?_⟩
    have hsome : (g.firstOf contracts (g.source contract).qualifiedModule).isSome = true := by
      rw [Generator.firstOf, List.find?_isSome]
      exact ⟨contract, hcontract, beq_self_eq_true _⟩
    obtain ⟨first, hfirst⟩ := Option.isSome_iff_exists.mp hsome
    refine ⟨first, List.mem_of_find?_eq_some hfirst, hfirst, ?_⟩
    rw [Generator.modulePath_eq (hdotted contract hcontract)]
    exact hhandled.file _ first hfirst
  · intro c hc d hd
    rw [Generator.modulePath_eq (hdotted c hc), Generator.modulePath_eq (hdotted d hd)]
    constructor
    · intro heq
      by_contra hne
      exact reach_placeOf_ne hne out.tree out.output heq
    · intro heq
      rw [heq]

end

/-! ### Two contracts of one name -/

/-- Classes of the same name that two modules of a package declare. -/
def twinContracts : List Element :=
  [{ module := "p.a", qualname := "Reader" }, { module := "p.b", qualname := "Reader" }]

/-- An output that has created nothing, in an empty directory. -/
def twinWork : Work :=
  ⟨⟨⟨.none, ["gen"]⟩, ⟨.none, ["gen"]⟩, "META-INF/services", "utf-8", []⟩, .empty ["home"], {}⟩

/-- The second of the twins finds the module of the first. -/
theorem second_twin_is_refused : ∃ middle made next,
    (Generator.mk "g" "today").generateAll (twinContracts.take 1) twinWork = (middle, .ok made) ∧
      (Generator.mk "g" "today").generate { module := "p.b", qualname := "Reader" } middle =
        (next, .ok none) ∧ next.tree = middle.tree := by
  set g := Generator.mk "g" "today" with hg
  have hdotted : ∀ c ∈ twinContracts, IsDotted c.qualifiedName := by decide +kernel
  have hencoding : Text.Encoding.ofName? twinWork.output.encoding = some .utf8 := by
    decide +kernel
  have htree : twinWork.tree.WellFormed := by decide +kernel
  have hopens : ∀ c ∈ twinContracts,
      (twinWork.tree.openForWriting (g.modulePath twinWork.output c)).2 = .ok () := by
    decide +kernel
  obtain ⟨hturns, -, -⟩ := one_module_per_name hdotted rfl hencoding htree
    fun c hc => ⟨_, Prod.ext rfl (hopens c hc)⟩
  obtain ⟨middle, made, next, path, hall, hgenerate, hanswers⟩ :=
    hturns (twinContracts.take 1) { module := "p.b", qualname := "Reader" } [] rfl
  have hfirst : g.firstOf (twinContracts.take 1)
      (g.source { module := "p.b", qualname := "Reader" }).qualifiedModule =
        some { module := "p.a", qualname := "Reader" } := by
    have hsame : (g.source { module := "p.a", qualname := "Reader" }).qualifiedModule =
        (g.source { module := "p.b", qualname := "Reader" }).qualifiedModule := by decide +kernel
    rw [twinContracts, List.take_succ_cons, List.take_zero, Generator.firstOf, List.find?_singleton,
      hsame, beq_self_eq_true, if_pos rfl]
  rw [hfirst] at hanswers
  obtain ⟨rfl, htree, -⟩ := hanswers
  exact ⟨middle, made, next, hall, hgenerate, htree⟩

end ProviderRegistry.Factory
