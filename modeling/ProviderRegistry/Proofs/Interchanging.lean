import Mathlib.Data.List.Forall2
import ProviderRegistry.Proofs.Processing

/-!
# Rounds over the same providers

What a round writes depends on its providers only through their names, through where their
contracts are declared, and through which of them ask for a factory. So two rounds that accept
the same providers in the same order, though each knows them by elements of its own, give the
same entries and leave the same files (`Finished.same`).
-/

namespace ProviderRegistry

open Symbols Registry Factory

/-- Two elements of one class. -/
structure Element.Same (e l : Element) : Prop where
  module : l.module = e.module
  qualname : l.qualname = e.qualname
  isPackage : l.isPackage = e.isPackage

instance (e l : Element) : Decidable (e.Same l) :=
  decidable_of_iff (l.module = e.module ∧ l.qualname = e.qualname ∧ l.isPackage = e.isPackage)
    ⟨fun ⟨h, h', h''⟩ => ⟨h, h', h''⟩, fun h => ⟨h.module, h.qualname, h.isPackage⟩⟩

theorem Element.Same.qualifiedName {e l : Element} (h : e.Same l) :
    l.qualifiedName = e.qualifiedName := by
  rw [Element.qualifiedName, Element.qualifiedName, h.module, h.qualname]

namespace Registry

/-- Two bindings of one provider to one contract. -/
structure Binding.Same (b b' : Binding) : Prop where
  contract : b.contract.Same b'.contract
  name : b'.name = b.name
  generateFactory : b'.generateFactory = b.generateFactory

variable {b b' : Binding} {bindings bindings' : List Binding}

theorem Binding.Same.key (h : b.Same b') : b'.key = b.key := h.contract.qualifiedName

theorem acceptedFor_same (h : List.Forall₂ Binding.Same bindings bindings') (contractName : String) :
    acceptedFor contractName bindings' = acceptedFor contractName bindings := by
  induction h with
  | nil => rfl
  | @cons b b' rest rest' hb _ ih =>
    have hrest : acceptedFor contractName rest' = acceptedFor contractName rest := ih
    rw [acceptedFor, acceptedFor] at hrest ⊢
    by_cases hkey : b.key = contractName
    · have hkey' : b'.key = contractName := hb.key.trans hkey
      rw [List.filter_cons_of_pos (by simpa using hkey'), List.filter_cons_of_pos
        (by simpa using hkey), List.map_cons, List.map_cons, hb.name, hrest]
    · have hkey' : ¬ b'.key = contractName := hb.key ▸ hkey
      rw [List.filter_cons_of_neg (by simpa using hkey'), List.filter_cons_of_neg
        (by simpa using hkey), hrest]

/-- The providers that come first for their contracts are the same. -/
theorem firsts_same (h : List.Forall₂ Binding.Same bindings bindings') :
    List.Forall₂ Binding.Same (firsts bindings) (firsts bindings') := by
  induction h with
  | nil => exact .nil
  | cons hb _ ih =>
    refine .cons hb (List.rel_filter (fun c c' hc => ?_) ih)
    simp only [hc.key, hb.key]

variable {output : Output}

/-- What is written does not depend on what has been reported before. -/
theorem writeEntries_reports (entries : List Entry) (tree : FileTree) (reports reports' : Reports) :
    (writeEntries output entries tree reports').1 = (writeEntries output entries tree reports).1 := by
  induction entries generalizing tree reports reports' with
  | nil => rfl
  | cons entry rest ih =>
    by_cases hempty : entry.implementations.isEmpty = true
    · rw [writeEntries_cons_of_isEmpty hempty, writeEntries_cons_of_isEmpty hempty]
      exact ih tree reports reports'
    · rcases hwritten : (⟨entry, tree⟩ : Turn).written output with ⟨next, result⟩
      cases result with
      | ok u =>
        rw [writeEntries_cons_ok hempty hwritten, writeEntries_cons_ok hempty hwritten]
        exact ih next reports reports'
      | error e =>
        by_cases hsystem : e.isSystem = true
        · rw [writeEntries_cons_system hempty hwritten hsystem,
            writeEntries_cons_system hempty hwritten hsystem]
          exact ih next _ _
        · rw [Bool.not_eq_true] at hsystem
          rw [writeEntries_cons_raise hempty hwritten hsystem,
            writeEntries_cons_raise hempty hwritten hsystem]

end Registry

namespace Factory

variable {g : Generator} {contract contract' : Element} {contracts contracts' : List Element}
  {out out' : Work}

/-- Two works on the same files. -/
structure Work.Same (out out' : Work) : Prop where
  output : out'.output = out.output
  tree : out'.tree = out.tree

theorem source_same (g : Generator) (h : contract.Same contract') :
    g.source contract' = g.source contract := by
  rw [Generator.source, Generator.source, Source.forContract, Source.forContract,
    Element.packageName, Element.packageName, Element.simpleName, Element.simpleName, h.module,
    h.qualname, h.isPackage]

/-- One class of which there are two elements has one factory module. -/
theorem generate_same (h : contract.Same contract') (hout : out.Same out') :
    (g.generate contract out).1.Same (g.generate contract' out').1 ∧
      (g.generate contract' out').2 = (g.generate contract out).2 := by
  rw [Generator.generate, Generator.generate, source_same g h, hout.output, hout.tree]
  generalize out.output.writeModule out.tree (g.source contract).package
    (g.source contract).moduleName (g.source contract).render.toList = r
  obtain ⟨output, tree, result⟩ := r
  cases result with
  | ok u => exact ⟨⟨rfl, rfl⟩, rfl⟩
  | error e =>
    cases e with
    | recreated name => exact ⟨⟨rfl, rfl⟩, rfl⟩
    | text e =>
      simp only
      split
      · exact ⟨⟨rfl, rfl⟩, rfl⟩
      · exact ⟨⟨rfl, rfl⟩, rfl⟩

theorem generateAll_same (h : List.Forall₂ Element.Same contracts contracts')
    (hout : out.Same out') :
    (g.generateAll contracts out).1.Same (g.generateAll contracts' out').1 ∧
      (g.generateAll contracts' out').2 = (g.generateAll contracts out).2 := by
  induction h generalizing out out' with
  | nil => exact ⟨hout, rfl⟩
  | @cons contract contract' rest rest' hcontract _ ih =>
    obtain ⟨hnext, hresult⟩ := generate_same (g := g) hcontract hout
    rw [Generator.generateAll, Generator.generateAll]
    rcases hrun : g.generate contract out with ⟨next, result⟩
    rcases hrun' : g.generate contract' out' with ⟨next', result'⟩
    rw [hrun, hrun'] at hnext hresult
    obtain rfl : result' = result := hresult
    cases result' with
    | error e => exact ⟨hnext, rfl⟩
    | ok path =>
      obtain ⟨hlast, hpaths⟩ := ih hnext
      exact ⟨hlast, congrArg (Except.map (path.toList ++ ·)) hpaths⟩

end Factory

/-! ## Whole rounds -/

variable {p : Processor} {output output' output'' : Output} {s s' t t' : Session}
  {bindings bindings' : List Binding} {outcome outcome' : RoundOutcome}

theorem mergedEntries_same (h : List.Forall₂ Binding.Same bindings bindings')
    (hfiles : t.world.files = s.world.files) :
    mergedEntries output t bindings' = mergedEntries output s bindings := by
  have hentry (key : String) : mergedEntry output t.world.files bindings' key =
      mergedEntry output s.world.files bindings key := by
    rw [mergedEntry, mergedEntry, acceptedFor_same h, hfiles]
  have hfirsts := firsts_same h
  rw [mergedEntries, mergedEntries]
  simp only [hentry]
  generalize firsts bindings = all, firsts bindings' = all' at hfirsts ⊢
  induction hfirsts with
  | nil => rfl
  | cons hb _ ih => rw [List.map_cons, List.map_cons, hb.key, ih]

theorem requestedFactories_same (h : List.Forall₂ Binding.Same bindings bindings') :
    List.Forall₂ Element.Same (requestedFactories bindings) (requestedFactories bindings') := by
  rw [requestedFactories, requestedFactories, List.forall₂_map_left_iff,
    List.forall₂_map_right_iff]
  refine (List.rel_filter (fun b b' hb => ?_) (firsts_same h)).imp fun b b' hb => hb.contract
  simp only [hb.generateFactory]

theorem registryWork_same (h : List.Forall₂ Binding.Same bindings bindings')
    (hfiles : t.world.files = s.world.files) :
    (registryWork output s bindings).Same (registryWork output t bindings') where
  output := rfl
  tree := by
    change (writeEntries output (mergedEntries output t bindings') t.world.files _).1 =
      (writeEntries output (mergedEntries output s bindings) s.world.files _).1
    rw [mergedEntries_same h hfiles, hfiles]
    exact writeEntries_reports _ _ _ _

/-- **Rounds over the same providers do the same**, whatever else their elements say. -/
theorem Finished.same (hs : Finished p output s bindings outcome output' s')
    (ht : Finished p output t bindings' outcome' output'' t')
    (h : List.Forall₂ Binding.Same bindings bindings')
    (hfiles : t.world.files = s.world.files) :
    outcome'.entries = outcome.entries ∧ outcome'.registryFiles = outcome.registryFiles ∧
      outcome'.generatedSources = outcome.generatedSources ∧
      t'.world.files = s'.world.files := by
  have hentries : outcome'.entries = outcome.entries := by
    rw [ht.entries, hs.entries, mergedEntries_same h hfiles]
  have hrequests : List.Forall₂ Element.Same outcome.requests outcome'.requests := by
    rw [ht.requests, hs.requests]
    exact requestedFactories_same h
  have hwritten : (registryWork output s bindings).Same (registryWork output t bindings') :=
    registryWork_same h hfiles
  obtain ⟨hwork, hpaths⟩ := generateAll_same (g := p.generator) hrequests hwritten
  rw [hs.generating, ht.generating] at hwork hpaths
  refine ⟨hentries, ?_, Except.ok.inj hpaths, hwork.tree⟩
  rw [ht.registryFiles, hs.registryFiles, hentries, hfiles]

end ProviderRegistry
