import ProviderRegistry.Factory.Generator
import ProviderRegistry.Proofs.Outputs

/-!
# Generating factory modules

Every request has its turn (`attempts`): its module is written, or refused and reported
with its contract. A module that is written changes the file at its own path, and one that
is refused changes none.
-/

namespace ProviderRegistry.Factory

open Registry

/-- The path of the factory module of a contract. -/
def Generator.modulePath (g : Generator) (output : Output) (contract : Element) : Path :=
  output.modulePath (g.source contract).package (g.source contract).moduleName

/-- What writing the factory module of a contract comes to: its path, or the text of the
refusal. -/
def Generator.attempt (g : Generator) (contract : Element) (out : Work) : Except String Path :=
  let source := g.source contract
  match (out.output.writeModule out.tree source.package source.moduleName
      source.render.toList).2.2 with
  | .ok () => .ok (g.modulePath out.output contract)
  | .error e => .error e.message

/-- What the requests come to in turn, each with its contract. -/
def Generator.attempts (g : Generator) : List Element → Work → List (Element × Except String Path)
  | [], _ => []
  | contract :: rest, out =>
    (contract, g.attempt contract out) :: attempts g rest (g.generate contract out).1

theorem Generator.length_attempts (g : Generator) (contracts : List Element) (out : Work) :
    (g.attempts contracts out).length = contracts.length := by
  induction contracts generalizing out with
  | nil => rfl
  | cons contract rest ih => rw [attempts, List.length_cons, ih, List.length_cons]

/-- The report of a request that was refused. -/
def refusalReport? : Element × Except String Path → Option Diagnostic
  | (contract, .error message) =>
    some { message := "Error generating factory class: " ++ message, element := contract }
  | (_, .ok _) => none

/-- An output with the same roots and encoding. -/
def SameRoots (before after : Output) : Prop := after = { before with created := after.created }

/-- What generating leaves: the modules that were written are the only files that have
changed, and what was refused is reported. -/
structure Generated (before after : Work) (paths : List Path) (reports : List Diagnostic) :
    Prop where
  roots : SameRoots before.output after.output
  keeps : before.tree.Keeps after.tree
  reports : after.reports.diagnostics = before.reports.diagnostics ++ reports
  file : ∀ l, (∀ p ∈ paths, before.tree.reach p ≠ l) → after.tree.file? l = before.tree.file? l

namespace Generated

variable {before middle after : Work} {paths paths' : List Path}
  {reports reports' : List Diagnostic}

theorem refl (out : Work) : Generated out out [] [] :=
  ⟨rfl, .refl _, by simp, fun _ _ => rfl⟩

theorem trans (h : Generated before middle paths reports)
    (h' : Generated middle after paths' reports') :
    Generated before after (paths ++ paths') (reports ++ reports') := by
  refine ⟨?_, h.keeps.trans h'.keeps, ?_, fun l hl => ?_⟩
  · have hroots := h'.roots
    rw [SameRoots, h.roots] at hroots
    exact hroots
  · rw [h'.reports, h.reports, List.append_assoc]
  · rw [h'.file l, h.file l]
    · exact fun p hp => hl p (List.mem_append_left _ hp)
    · intro p hp
      rw [h.keeps.reach]
      exact hl p (List.mem_append_right _ hp)

end Generated

variable {g : Generator} {contract : Element} {out after : Work}

/-- What a request that ends well has done. -/
theorem of_generate_eq_ok {path : Option Path} (h : g.generate contract out = (after, .ok path)) :
    path = (g.attempt contract out).toOption ∧
      Generated out after path.toList
        (refusalReport? (contract, g.attempt contract out)).toList := by
  rw [Generator.generate] at h
  rw [Generator.attempt]
  -- Of the four things that writing a module can come to, one raises and is ruled out by
  -- `h`; the others are a refusal of the output, one of the system, and success.
  rcases out.output.writeModule_cases out.tree (g.source contract).package
      (g.source contract).moduleName (g.source contract).render.toList with
    hw | ⟨next, e, hw, hext⟩ | ⟨created, next, e, hw, he⟩ | ⟨created, next, bytes, hw, hwrote⟩
  · simp only [hw, Prod.mk.injEq, Except.ok.injEq] at h ⊢
    obtain ⟨rfl, rfl⟩ := h
    exact ⟨rfl, rfl, .refl _, rfl, fun _ _ => rfl⟩
  · simp only [hw] at h ⊢
    split at h
    next =>
      simp only [Prod.mk.injEq, Except.ok.injEq] at h
      obtain ⟨rfl, rfl⟩ := h
      exact ⟨rfl, rfl, hext.toKeeps, rfl, fun l _ => hext.file l⟩
    next => cases (Prod.mk.inj h).2
  · simp only [hw, he, Bool.false_eq_true, if_false] at h
    cases (Prod.mk.inj h).2
  · simp only [hw, Prod.mk.injEq, Except.ok.injEq] at h ⊢
    obtain ⟨rfl, rfl⟩ := h
    refine ⟨rfl, rfl, hwrote.toKeeps, ?_, fun l hl => hwrote.other l ?_⟩
    · rw [refusalReport?, Option.toList_none, List.append_nil]
    · exact (hl _ (List.mem_singleton.mpr rfl)).symm

/-- A module that is written is written to the path of its contract's module. -/
theorem eq_modulePath_of_attempt {path : Path} (h : g.attempt contract out = .ok path) :
    path = g.modulePath out.output contract := by
  rw [Generator.attempt] at h
  split at h
  next => exact (Except.ok.inj h).symm
  next => cases h

/-- Requests end well when the first does and then the others do. -/
theorem of_generateAll_cons_eq_ok {rest : List Element} {paths : List Path}
    (h : g.generateAll (contract :: rest) out = (after, .ok paths)) :
    ∃ next path more, g.generate contract out = (next, .ok path) ∧
      g.generateAll rest next = (after, .ok more) ∧ paths = path.toList ++ more := by
  rw [Generator.generateAll] at h
  rcases hg : g.generate contract out with ⟨next, result⟩
  rw [hg] at h
  cases result with
  | error e => cases (Prod.mk.inj h).2
  | ok path =>
    obtain ⟨hafter, hpaths⟩ := Prod.mk.inj h
    cases hrest : (g.generateAll rest next).2 with
    | error e =>
      rw [hrest] at hpaths
      cases hpaths
    | ok more =>
      rw [hrest] at hpaths
      exact ⟨next, path, more, rfl, Prod.ext hafter hrest, (Except.ok.inj hpaths).symm⟩

/-- **What requests that all end well have done**: the paths are those of the modules that
were written, and every other request is reported. -/
theorem of_generateAll_eq_ok {contracts : List Element} {paths : List Path}
    (h : g.generateAll contracts out = (after, .ok paths)) :
    paths = (g.attempts contracts out).filterMap (·.2.toOption) ∧
      Generated out after paths ((g.attempts contracts out).filterMap refusalReport?) := by
  induction contracts generalizing out paths with
  | nil =>
    cases h
    exact ⟨rfl, .refl _⟩
  | cons contract rest ih =>
    obtain ⟨next, path, more, hg, hrest, rfl⟩ := of_generateAll_cons_eq_ok h
    obtain ⟨hpath, hgenerated⟩ := of_generate_eq_ok hg
    obtain ⟨hmore_eq, hmore⟩ := ih hrest
    rw [Generator.attempts, hg]
    refine ⟨?_, ?_⟩
    · rw [hmore_eq, hpath, List.filterMap_cons]
      cases (g.attempt contract out).toOption <;> rfl
    · have hall := hgenerated.trans hmore
      rw [List.filterMap_cons]
      cases hreport : refusalReport? (contract, g.attempt contract out) <;>
        rw [hreport] at hall <;> exact hall

/-- No request is refused just when the module of every contract is written. -/
theorem refusals_eq_nil_iff {contracts : List Element} {paths : List Path}
    (h : g.generateAll contracts out = (after, .ok paths)) :
    (g.attempts contracts out).filterMap refusalReport? = [] ↔
      paths = contracts.map (g.modulePath out.output) := by
  induction contracts generalizing out paths with
  | nil =>
    cases h
    simp [Generator.attempts]
  | cons contract rest ih =>
    obtain ⟨next, path, more, hg, hrest, rfl⟩ := of_generateAll_cons_eq_ok h
    obtain ⟨hpath, hgenerated⟩ := of_generate_eq_ok hg
    have hlength : more.length ≤ rest.length := by
      rw [(of_generateAll_eq_ok hrest).1]
      exact g.length_attempts rest next ▸ List.length_filterMap_le _ _
    -- An output remembers the modules that it has made, and keeps its roots.
    have hroots : g.modulePath next.output = g.modulePath out.output := by
      have hsame := hgenerated.roots
      rw [SameRoots] at hsame
      rw [hsame]
      rfl
    rw [Generator.attempts, hg, List.map_cons, hpath]
    cases hattempt : g.attempt contract out with
    | error message =>
      -- A refused request leaves one path too few.
      rw [List.filterMap_cons, refusalReport?]
      simp only [reduceCtorEq, false_iff]
      intro heq
      have hfew := congrArg List.length heq
      simp only [Except.toOption, Option.toList_none, List.nil_append, List.length_cons,
        List.length_map] at hfew
      omega
    | ok found =>
      have hfound : found = g.modulePath out.output contract :=
        eq_modulePath_of_attempt hattempt
      have hrest_iff := ih hrest
      rw [hroots] at hrest_iff
      rw [List.filterMap_cons, refusalReport?]
      simp only [Except.toOption, Option.toList_some, List.singleton_append, List.cons.injEq,
        hfound, true_and]
      exact hrest_iff

end ProviderRegistry.Factory
