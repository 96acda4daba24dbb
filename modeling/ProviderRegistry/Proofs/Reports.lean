import ProviderRegistry.Proofs.Resolving
import ProviderRegistry.Proofs.Rounds
import ProviderRegistry.Proofs.Scanning

/-!
# What a round reports

A round over sources reports everything that goes wrong and nothing else: what the scan
could not read, the classes that it rejects, the registry files that it could not read and
those that it could not write, and the factories that it could not write
(`reported_of_fresh`). Every marked class is accepted or rejected, and never both.
-/

namespace ProviderRegistry

open Symbols Registry Resolution Factory

/-! ## Classes accepted and rejected -/

/-- The reports of the marked classes that break a rule. -/
def rejections (model : StaticModel) (markers : List String) : List Diagnostic :=
  (model.marked markers).filterMap (rejection? model markers)

/-- One of some reports is about a class, and the others are not. -/
def Rejects (reports : List Diagnostic) (e : Element) : Prop :=
  ∃ before d after, reports = before ++ d :: after ∧ d.element = some e ∧
    ∀ other ∈ before ++ after, other.element ≠ some e

/-- A class is a provider, and stands in the entry of its contract. -/
def Accepts (bindings : List Binding) (entries : List Entry) (e : Element) : Prop :=
  ∃ b ∈ bindings, b.implementation = e ∧
    ∃ entry ∈ entries, entry.contractName = b.key ∧ e.qualifiedName ∈ entry.implementations

section

variable {model : StaticModel} {markers : List String} {e : Element}

theorem element_of_rejection? {d : Diagnostic} (h : rejection? model markers e = some d) :
    d.element = some e := by
  rw [rejection?] at h
  split at h
  next => cases h
  next => exact Option.some.inj h ▸ rfl

/-- Every rejection is that of a class that breaks a rule. -/
theorem verdict_of_mem_rejections {d : Diagnostic} (h : d ∈ rejections model markers)
    (helement : d.element = some e) : ∃ message, verdict model markers e = .error message := by
  obtain ⟨rejected, -, hd⟩ := List.mem_filterMap.mp h
  have hsame := element_of_rejection? hd
  rw [helement] at hsame
  obtain rfl := Option.some.inj hsame
  rw [rejection?] at hd
  split at hd
  next => cases hd
  next message hverdict => exact ⟨message, hverdict⟩

/-- A marked class that breaks a rule is rejected once. -/
theorem rejects_of_verdict (hnodup : (model.marked markers).Nodup)
    (he : e ∈ model.marked markers) {message : String}
    (h : verdict model markers e = .error message) : Rejects (rejections model markers) e := by
  obtain ⟨before, after, hmarked⟩ := List.append_of_mem he
  have hrejection : rejection? model markers e = some { message, element := e } := by
    rw [rejection?, h]
  refine ⟨before.filterMap (rejection? model markers), { message, element := e },
    after.filterMap (rejection? model markers), ?_, rfl, fun other hother heq => ?_⟩
  · rw [rejections, hmarked, List.filterMap_append, List.filterMap_cons, hrejection]
  · -- The classes before and after are others, and so are the classes of their reports.
    rw [hmarked, List.nodup_middle, List.nodup_cons] at hnodup
    rw [← List.filterMap_append] at hother
    obtain ⟨rejected, hrejected, hd⟩ := List.mem_filterMap.mp hother
    rw [element_of_rejection? hd] at heq
    exact hnodup.1 (Option.some.inj heq ▸ hrejected)

end

/-! ## All reports of a round -/

namespace FinishedRound

variable {r : FinishedRound} {model scanned : StaticModel}

/-- The reports of registry files that are there and could not be read. -/
def unread (r : FinishedRound) : List Diagnostic :=
  r.outcome.entries.filterMap fun entry =>
    unreadReport? r.output r.start.world.files entry.contractName

/-- The reports of registry files that could not be written. -/
def unwritten (r : FinishedRound) : List Diagnostic :=
  (turns r.output r.outcome.entries r.start.world.files).filterMap (·.report? r.output)

/-- The reports of factories that could not be written. -/
def refused (r : FinishedRound) : List Diagnostic :=
  (r.processor.generator.attempts r.outcome.requests
    (registryWork r.output r.asked r.bindings)).filterMap refusalReport?

/-- A round rejects a class, in one report, and has no binding for it; or it accepts the
class, and has no report that rejects it. -/
def Settles (r : FinishedRound) (scanned : StaticModel) (e : Element) : Prop :=
  (Rejects (rejections scanned r.processor.markers) e ∧ ∀ b ∈ r.bindings, b.implementation ≠ e) ∨
  (Accepts r.bindings r.outcome.entries e ∧
    ∀ d ∈ rejections scanned r.processor.markers, d.element ≠ some e)

/-- What a round reports over a model that has read nothing before it and has `scanned` its
sources after it. -/
structure Reported (r : FinishedRound) (model scanned : StaticModel) : Prop where
  diagnostics : r.outcome.diagnostics =
    (model.visits r.start.world.files).flatMap StaticModel.Visit.diagnostics ++
      rejections scanned r.processor.markers ++ r.unread ++ r.unwritten ++ r.refused
  isError : ∀ d ∈ r.outcome.diagnostics, d.isError = true
  settles : ∀ e ∈ scanned.marked r.processor.markers, r.Settles scanned e
  hasErrors : r.outcome.hasErrors = false ↔
    (∀ root ∈ model.roots, r.start.world.files.isDirectory root = .ok true) ∧
    (∀ v ∈ model.visits r.start.world.files, ∀ a ∈ v.attempts, a.refusal? = none) ∧
    (∀ e ∈ scanned.marked r.processor.markers, Accepts r.bindings r.outcome.entries e) ∧
    (∀ entry ∈ r.outcome.entries,
      unreadable? r.output r.start.world.files entry.contractName = none) ∧
    r.outcome.registryFiles =
      r.outcome.entries.map (fun entry => r.output.registryPath entry.contractName) ∧
    r.outcome.generatedSources =
      r.outcome.requests.map (r.processor.generator.modulePath r.output)

/-- Every provider stands in the entry of its contract. -/
theorem accepts_of_mem_bindings {b : Binding} (h : b ∈ r.bindings) :
    Accepts r.bindings r.outcome.entries b.implementation := by
  obtain ⟨-, hfinished⟩ := r.finished
  obtain ⟨first, hfirst, hkey⟩ := List.mem_map.mp
    (mem_firsts_key.mpr (List.mem_map_of_mem h))
  refine ⟨b, h, rfl, mergedEntry r.output r.asked.world.files r.bindings first.key, ?_, hkey, ?_⟩
  · rw [hfinished.entries]
    exact List.mem_map_of_mem hfirst
  · rw [mergedEntry, List.mem_eraseDups, List.mem_append]
    refine .inl (List.mem_map.mpr ⟨b, List.mem_filter.mpr ⟨h, ?_⟩, rfl⟩)
    exact beq_iff_eq.mpr hkey.symm

theorem implementations_ne_nil : ∀ entry ∈ r.outcome.entries, entry.implementations ≠ [] := by
  obtain ⟨-, hfinished⟩ := r.finished
  rw [hfinished.entries]
  intro entry hentry
  obtain ⟨first, hfirst, rfl⟩ := List.mem_map.mp hentry
  rw [mergedEntry, Ne, eraseDups_eq_nil]
  refine List.append_ne_nil_of_left_ne_nil (fun hnil => ?_) _
  exact acceptedFor_eq_nil.mp hnil (mem_firsts_key.mp (List.mem_map_of_mem hfirst))

/-- Each marked class is rejected once or accepted, and never both. -/
theorem settles_of_bindings_eq
    (hbindings : r.bindings = acceptedBindings scanned r.processor.markers)
    (hnodup : (scanned.marked r.processor.markers).Nodup) :
    ∀ e ∈ scanned.marked r.processor.markers, r.Settles scanned e := by
  intro e he
  -- A verdict is one or the other, and both the reports and the bindings follow it.
  cases hverdict : verdict scanned r.processor.markers e with
  | error message =>
    refine .inl ⟨rejects_of_verdict hnodup he hverdict, fun b hb heq => ?_⟩
    rw [hbindings] at hb
    have hb := (of_mem_acceptedBindings hb).2
    rw [heq, hverdict] at hb
    cases hb
  | ok b =>
    refine .inr ⟨?_, fun d hd helement => ?_⟩
    · have hmem : b ∈ r.bindings := by
        rw [hbindings]
        exact List.mem_filterMap.mpr ⟨e, he, by rw [hverdict]; rfl⟩
      have haccepts := accepts_of_mem_bindings hmem
      rwa [(of_verdict_eq_ok _ hverdict).1] at haccepts
    · obtain ⟨message, hmessage⟩ := verdict_of_mem_rejections hd helement
      rw [hverdict] at hmessage
      cases hmessage

/-- Nothing is rejected just when every marked class is accepted. -/
theorem rejections_eq_nil_iff
    (hsettles : ∀ e ∈ scanned.marked r.processor.markers, r.Settles scanned e) :
    rejections scanned r.processor.markers = [] ↔
      ∀ e ∈ scanned.marked r.processor.markers, Accepts r.bindings r.outcome.entries e := by
  constructor
  · intro hnil e he
    rcases hsettles e he with ⟨⟨before, d, after, hreports, -⟩, -⟩ | ⟨haccepts, -⟩
    · rw [hnil] at hreports
      exact absurd hreports.symm (by simp)
    · exact haccepts
  · intro hall
    rw [List.eq_nil_iff_forall_not_mem]
    intro d hd
    obtain ⟨e, he, hrejection⟩ := List.mem_filterMap.mp hd
    rcases hsettles e he with ⟨-, hnone⟩ | ⟨-, hnone⟩
    · obtain ⟨b, hb, heq, -⟩ := hall e he
      exact hnone b hb heq
    · exact hnone d hd (element_of_rejection? hrejection)

/-! ### Errors -/

theorem isError_visits (v : StaticModel.Visit) : ∀ d ∈ v.diagnostics, d.isError = true := by
  cases v with
  | missing root => exact List.forall_mem_singleton.mpr rfl
  | entered attempts =>
    intro d hd
    obtain ⟨a, -, ha⟩ := List.mem_filterMap.mp hd
    obtain ⟨reason, -, rfl⟩ := Option.map_eq_some_iff.mp ha
    rfl

theorem isError_rejections (markers : List String) :
    ∀ d ∈ rejections scanned markers, d.isError = true := by
  intro d hd
  obtain ⟨e, -, hrejection⟩ := List.mem_filterMap.mp hd
  rw [rejection?] at hrejection
  split at hrejection
  next => cases hrejection
  next => exact Option.some.inj hrejection ▸ rfl

theorem isError_unread (r : FinishedRound) : ∀ d ∈ r.unread, d.isError = true := by
  intro d hd
  obtain ⟨entry, -, hreport⟩ := List.mem_filterMap.mp hd
  obtain ⟨e, -, rfl⟩ := Option.map_eq_some_iff.mp hreport
  rfl

theorem isError_unwritten (r : FinishedRound) : ∀ d ∈ r.unwritten, d.isError = true := by
  intro d hd
  obtain ⟨t, -, hreport⟩ := List.mem_filterMap.mp hd
  obtain ⟨e, -, rfl⟩ := Option.map_eq_some_iff.mp hreport
  rfl

theorem isError_refused (r : FinishedRound) : ∀ d ∈ r.refused, d.isError = true := by
  intro d hd
  obtain ⟨⟨contract, result⟩, -, hreport⟩ := List.mem_filterMap.mp hd
  cases result with
  | error message => exact Option.some.inj hreport ▸ rfl
  | ok path => cases hreport

/-- A round has errors just when it reports something, if all that it reports are errors. -/
theorem hasErrors_eq_false_iff (h : ∀ d ∈ r.outcome.diagnostics, d.isError = true) :
    r.outcome.hasErrors = false ↔ r.outcome.diagnostics = [] := by
  rw [RoundOutcome.hasErrors, RoundOutcome.errors, List.filter_eq_self.mpr h,
    Bool.not_eq_false', List.isEmpty_iff]

/-- The parts of a round's reports that come after those of the scan. -/
theorem unread_eq (r : FinishedRound) : r.unread = unreadReports r.output r.asked r.bindings := by
  obtain ⟨hfiles, hfinished⟩ := r.finished
  rw [unread, unreadReports, hfinished.entries, mergedEntries, List.filterMap_map, hfiles]
  rfl

theorem unread_eq_nil_iff (r : FinishedRound) : r.unread = [] ↔
    ∀ entry ∈ r.outcome.entries,
      unreadable? r.output r.start.world.files entry.contractName = none := by
  rw [unread, List.filterMap_eq_nil_iff]
  simp only [unreadReport?, Option.map_eq_none_iff]

/-- What a round over a model that has read nothing yet reports. -/
theorem diagnostics_of_fresh (hmodel : r.start.model = .static model) (hscope : model.scope = {})
    (helements : model.elements = none) :
    ∃ scanned reports,
      model.scan r.start.world.files r.start.reports = (scanned, reports, .ok ()) ∧
      r.finish.model = .static scanned ∧
      r.bindings = acceptedBindings scanned r.processor.markers ∧
      r.outcome.diagnostics =
        (model.visits r.start.world.files).flatMap StaticModel.Visit.diagnostics ++
          rejections scanned r.processor.markers ++ r.unread ++ r.unwritten ++ r.refused := by
  obtain ⟨-, -, -, -, hdiagnostics⟩ := Processor.of_process r.ends
  obtain ⟨scanned, reports, hscan, hbindings, hasked⟩ :=
    Processor.of_run_accepted hmodel r.run_accepted
  obtain ⟨hfiles, hfinished⟩ := r.finished
  refine ⟨scanned, reports, hscan, ?_, hbindings, ?_⟩
  · rw [hfinished.model, hasked]
  -- The reports made before the round are those that `process` drops.
  · have hreports : r.asked.reports.diagnostics = r.start.reports.diagnostics ++
        ((model.visits r.start.world.files).flatMap StaticModel.Visit.diagnostics ++
          rejections scanned r.processor.markers) := by
      rw [hasked]
      simp only
      rw [(StaticModel.reports_of_scan hscope helements hscan).1, List.append_assoc]
      rfl
    rw [hdiagnostics, hfinished.reports, hreports, List.append_assoc, List.drop_left, unread_eq,
      hfiles]
    simp only [List.append_assoc]
    rfl

/-- **A round over sources reports all that goes wrong, and nothing else.** Its reports are
errors: a root that is not there and a file that could not be decoded and parsed, in the
order of the scan; a marked class that breaks a rule, with the class; a registry file that
is there and could not be read; one that could not be written; and a factory that could not
be written. Every marked class is rejected in one report or stands in the entry of its
contract as a provider, and never both. So the round has no errors just when all went
well. -/
theorem reported_of_fresh (hmodel : r.start.model = .static model) (hscope : model.scope = {})
    (helements : model.elements = none) :
    ∃ scanned, r.finish.model = .static scanned ∧ r.Reported model scanned := by
  obtain ⟨scanned, reports, hscan, hleft, hbindings, hdiagnostics⟩ :=
    r.diagnostics_of_fresh hmodel hscope helements
  have hisError : ∀ d ∈ r.outcome.diagnostics, d.isError = true := by
    rw [hdiagnostics]
    simp only [List.forall_mem_append, List.forall_mem_flatMap]
    refine ⟨⟨⟨⟨fun v _ => isError_visits v, isError_rejections _⟩, r.isError_unread⟩,
      r.isError_unwritten⟩, r.isError_refused⟩
  have hnodup : (scanned.marked r.processor.markers).Nodup :=
    (StaticModel.nodup_found hscope helements hscan).filter _
  have hsettles := settles_of_bindings_eq hbindings hnodup
  refine ⟨scanned, hleft, hdiagnostics, hisError, hsettles, ?_⟩
  obtain ⟨hfiles, hfinished⟩ := r.finished
  -- Nothing is reported just when each of the five parts is empty.
  have hunwritten : r.unwritten = [] ↔ r.outcome.registryFiles =
      r.outcome.entries.map (fun entry => r.output.registryPath entry.contractName) := by
    rw [hfinished.registryFiles, hfiles]
    exact unwritten_eq_nil_iff r.implementations_ne_nil
  have hrefused : r.refused = [] ↔ r.outcome.generatedSources =
      r.outcome.requests.map (r.processor.generator.modulePath r.output) :=
    refusals_eq_nil_iff hfinished.generating
  rw [hasErrors_eq_false_iff hisError, hdiagnostics]
  simp only [List.append_eq_nil_iff, (StaticModel.reports_of_scan hscope helements hscan).2,
    rejections_eq_nil_iff hsettles, unread_eq_nil_iff, hunwritten, hrefused, and_assoc]

end FinishedRound

/-! ### A round in which all goes wrong -/

/-- A model of the sources below some roots. -/
def reportModel (roots : List Path) : StaticModel where
  roots
  ignoreDirs := []
  encoding := "utf-8"

/-- A session in which nothing has been read yet. -/
def reportSession (roots : List Path) (nodes : Table Location Node) : Session where
  model := .static (reportModel roots)
  world := { files := ⟨[], nodes⟩, modules := [], classes := #[] }

/-- A round in such a session. -/
def reportRound? (roots : List Path) (nodes : Table Location Node) : Option FinishedRound :=
  FinishedRound.run? ⟨["p"], ⟨"g", ""⟩⟩ sampleOutput (reportSession roots nodes)

/-- Three contracts with a provider each, and a class that is marked and no provider. -/
def lossySource : String :=
  "class C:0\nclass D:0\nclass E:0\n@p('m.C')\nclass I(C):0\n@p('m.D')\nclass J(D):0\n" ++
  "@p('m.E',generate_factory=True)\nclass K(E):0\n@p('m.E')\nclass L:0\n"

/-- A file that cannot be parsed, a registry file that cannot be decoded, and directories in
the places of another one and of a factory. -/
def lossyNodes : Table Location Node :=
  [(["a"], .directory), (["a", "m.py"], .file (Text.utf8Bytes lossySource.toList)),
    (["b"], .directory), (["b", "n.py"], .file (Text.utf8Bytes "class".toList)),
    (["o"], .directory), (["o", "s"], .directory), (["o", "s", "m.C"], .file [255]),
    (["o", "s", "m.D"], .directory), (["o", "e_factory.py"], .directory)]

/-- The first of these roots is not there. -/
def lossyRoots : List Path := [⟨.none, ["x"]⟩, ⟨.none, ["a"]⟩, ⟨.none, ["b"]⟩]

def lossyRound : FinishedRound := (reportRound? lossyRoots lossyNodes).get (by decide +kernel)

theorem lossyRound_start : lossyRound.start = reportSession lossyRoots lossyNodes :=
  (FinishedRound.of_run?_eq_some (Option.some_get _).symm).2.2

theorem reported_of_fresh_lossy :
    (∃ scanned, lossyRound.finish.model = .static scanned ∧
      lossyRound.Reported (reportModel lossyRoots) scanned) ∧
    lossyRound.outcome.diagnostics.map (fun d => (d.message, d.element.map (·.qualifiedName))) =
      [("Source root not found: x", none), ("Could not parse b/n.py: SyntaxError", none),
        ("Type m.L is not assignable from m.E", some "m.L"),
        ("Could not read o/s/m.C: 'utf-8' codec can't decode byte 0xff in position 0: " ++
          "invalid start byte", none),
        ("Could not read o/s/m.D: [Errno 21] Is a directory: 'o/s/m.D'", none),
        ("Could not write o/s/m.D: [Errno 21] Is a directory: 'o/s/m.D'", none),
        ("Error generating factory class: [Errno 21] Is a directory: 'o/e_factory.py'",
          some "m.E")] := by
  refine ⟨FinishedRound.reported_of_fresh ?_ rfl rfl, by decide +kernel⟩
  rw [lossyRound_start]
  rfl

/-! ### A name that is rejected and written -/

/-- Two marked classes. The second does not inherit from the contract, but its name is in
the registry file already. -/
def clashNodes : Table Location Node :=
  [(["q"], .directory),
    (["q", "a.py"], .file (Text.utf8Bytes "@p('a.A')\nclass A:0\n@p('a.A')\nclass B:0\n".toList)),
    (["o"], .directory), (["o", "s"], .directory),
    (["o", "s", "a.A"], .file (Text.utf8Bytes "a.B\n".toList))]

def clashRound : FinishedRound :=
  (reportRound? [⟨.none, ["q"]⟩] clashNodes).get (by decide +kernel)

theorem clashRound_start : clashRound.start = reportSession [⟨.none, ["q"]⟩] clashNodes :=
  (FinishedRound.of_run?_eq_some (Option.some_get _).symm).2.2

/-- That a marked class stands in the entry of its contract does not mean that the round
accepts it: a round that reads, writes and generates all that it should, and in whose
registry file every marked class stands, may reject one of them. -/
theorem rejected_and_written :
    clashRound.start.model = .static (reportModel [⟨.none, ["q"]⟩]) ∧
      (((reportModel [⟨.none, ["q"]⟩]).scan clashRound.start.world.files {}).1.marked
        clashRound.processor.markers).map (·.qualifiedName) = ["a.A", "a.B"] ∧
      clashRound.start.world.files.isDirectory ⟨.none, ["q"]⟩ = .ok true ∧
      (∀ v ∈ (reportModel [⟨.none, ["q"]⟩]).visits clashRound.start.world.files,
        ∀ a ∈ v.attempts, a.refusal?.isNone = true) ∧
      (unreadable? clashRound.output clashRound.start.world.files "a.A").isNone = true ∧
      clashRound.outcome.entries = [⟨"a.A", ["a.A", "a.B"]⟩] ∧
      clashRound.outcome.registryFiles = [clashRound.output.registryPath "a.A"] ∧
      clashRound.outcome.requests.length = 0 ∧
      clashRound.outcome.diagnostics.map (fun d => (d.message, d.element.map (·.qualifiedName))) =
        [("Type a.B is not assignable from a.A", some "a.B")] ∧
      clashRound.outcome.hasErrors = true := by
  refine ⟨?_, ?_, ?_⟩
  · rw [clashRound_start]
    rfl
  · decide +kernel
  · decide +kernel

end ProviderRegistry
