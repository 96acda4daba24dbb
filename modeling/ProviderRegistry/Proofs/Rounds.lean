import ProviderRegistry.Proofs.Processing

/-!
# Registry files over many rounds

What a registry file holds after any number of rounds (`registry_over_rounds`): what the
last round accepted, then what the round before it did, and so on down to the lines that
were there first, each line once. One round puts its names in front of the lines it finds
(`FinishedRound.WorksOn.read_registry`), and the lines that it writes are the ones that the next
round finds (`FileLines.of_read`).
-/

namespace ProviderRegistry

open Symbols Registry

/-! ## The lines of a file -/

/-- The bytes of a file that holds some lines. -/
def contentOf (lines : List String) : List UInt8 :=
  Text.utf8Bytes (Text.unlines (lines.map String.toList))

/-- The lines of the file at a path: none if there is no file at its place, and those of
its text if it can be read as UTF-8. -/
inductive FileLines (tree : FileTree) (p : Path) : List String → Prop
  | absent (h : tree.file? (tree.reach p) = none) : FileLines tree p []
  | text {bytes : List UInt8} {text : List Char} (hread : tree.read p = .ok bytes)
      (hdecode : Text.decode .utf8 bytes = .ok text) :
      FileLines tree p (readLines (Text.normalizeNewlines text))

/-- A line without line ends in it. -/
def IsLine (line : String) : Prop := '\n' ∉ line.toList ∧ '\r' ∉ line.toList

instance (line : String) : Decidable (IsLine line) := inferInstanceAs (Decidable (_ ∧ _))

theorem isLine_readLines (text : List Char) :
    ∀ line ∈ readLines (Text.normalizeNewlines text), IsLine line := by
  intro line hline
  obtain ⟨chars, hchars, rfl⟩ := List.mem_map.mp hline
  rw [IsLine, String.toList_ofList]
  refine ⟨fun h => (Text.mem_linesOf hchars h).2 rfl, fun h => ?_⟩
  exact Text.carriageReturn_notMem_normalizeNewlines text (Text.mem_linesOf hchars h).1

/-- Lines that are joined with newlines are read back as they were. -/
theorem readLines_unlines {lines : List String} (h : ∀ line ∈ lines, IsLine line) :
    readLines (Text.normalizeNewlines (Text.unlines (lines.map String.toList))) = lines := by
  have hreturn : '\r' ∉ Text.unlines (lines.map String.toList) := by
    refine Text.carriageReturn_notMem_unlines fun chars hchars => ?_
    obtain ⟨line, hline, rfl⟩ := List.mem_map.mp hchars
    exact (h line hline).2
  have hnewline : ∀ chars ∈ lines.map String.toList, '\n' ∉ chars := by
    intro chars hchars
    obtain ⟨line, hline, rfl⟩ := List.mem_map.mp hchars
    exact (h line hline).1
  rw [Text.normalizeNewlines_eq_self hreturn, readLines, Text.linesOf_unlines hnewline,
    List.map_map]
  simp

namespace FileLines

variable {tree before after : FileTree} {p : Path} {lines : List String}

theorem isLine (h : FileLines tree p lines) : ∀ line ∈ lines, IsLine line := by
  cases h with
  | absent => exact List.forall_mem_nil _
  | @text bytes text _ _ => exact isLine_readLines text

/-- The lines of a file that has been written are those that were written. -/
theorem of_read (hread : tree.read p = .ok (contentOf lines))
    (h : ∀ line ∈ lines, IsLine line) : FileLines tree p lines := by
  have hdecode : Text.decode .utf8 (contentOf lines) =
      .ok (Text.unlines (lines.map String.toList)) := Text.decode_utf8Bytes _
  exact readLines_unlines h ▸ .text hread hdecode

/-- A file that has not changed has its lines still. -/
theorem of_file?_eq (h : FileLines before p lines) (hkeeps : before.Keeps after)
    (hfile : after.file? (before.reach p) = before.file? (before.reach p)) :
    FileLines after p lines := by
  cases h with
  | absent habsent =>
    refine .absent ?_
    rw [hkeeps.reach, hfile, habsent]
  | text hread hdecode =>
    refine .text ?_ hdecode
    rw [FileTree.read_eq_ok] at hread ⊢
    rw [hkeeps.reach, hfile]
    exact ⟨hkeeps.locate hread.1, hread.2⟩

/-- A file has its lines only. -/
theorem unique {lines' : List String} (h : FileLines tree p lines) (h' : FileLines tree p lines') :
    lines = lines' := by
  cases h with
  | absent habsent =>
    cases h' with
    | absent => rfl
    | text hread =>
      rw [FileTree.read_eq_ok, habsent] at hread
      cases hread.2
  | text hread hdecode =>
    cases h' with
    | absent habsent =>
      rw [FileTree.read_eq_ok, habsent] at hread
      cases hread.2
    | text hread' hdecode' =>
      rw [hread] at hread'
      obtain rfl := Except.ok.inj hread'
      rw [hdecode] at hdecode'
      obtain rfl := Except.ok.inj hdecode'
      rfl

/-- What a round that writes in UTF-8 finds in a registry file. -/
theorem existingLines_eq {output : Output} {contractName : String}
    (hencoding : Text.Encoding.ofName? output.encoding = some .utf8)
    (h : FileLines tree (output.registryPath contractName) lines) :
    existingLines output tree contractName = lines := by
  rw [existingLines, Output.readResource, FileTree.readTextStream, FileTree.readTextWith]
  cases h with
  | absent habsent =>
    cases hread : tree.read (output.resourcePath (output.registryFile contractName)) with
    | error e => rfl
    | ok bytes =>
      rw [FileTree.read_eq_ok, habsent] at hread
      cases hread.2
  | text hread hdecode =>
    rw [hread]
    simp only [hencoding, Text.decodeStream_of_decode hdecode]

end FileLines

/-! ## One round -/

/-- A round that has ended well: what it started from and what came of it. -/
structure FinishedRound where
  processor : Processor
  output : Output
  start : Session
  outcome : RoundOutcome
  leftOutput : Output
  finish : Session
  ends : Rounding.Ends processor.process output start outcome leftOutput finish

namespace FinishedRound

variable {r : FinishedRound} {target : Output} {contractName : String} {lines : List String}

/-- The round that a processor makes, if it ends well. -/
def run? (p : Processor) (output : Output) (s : Session) : Option FinishedRound :=
  match h : p.process output s with
  | ((.ok outcome, leftOutput), finish) => some ⟨p, output, s, outcome, leftOutput, finish, h⟩
  | ((.error _, _), _) => none

theorem of_run?_eq_some {p : Processor} {output : Output} {s : Session}
    (h : run? p output s = some r) : r.processor = p ∧ r.output = output ∧ r.start = s := by
  rw [run?] at h
  split at h
  next => exact Option.some.inj h ▸ ⟨rfl, rfl, rfl⟩
  next => cases h

/-- The providers that a round accepted. -/
def bindings (r : FinishedRound) : List Binding :=
  match (r.processor.accepted.run r.start).1 with
  | .ok bindings => bindings
  | .error _ => []

/-- The names that a round accepted for a contract, in the order of their discovery. -/
def names (r : FinishedRound) (contractName : String) : List String :=
  acceptedFor contractName r.bindings

/-- A round works on the registry file of a contract below a class output: it writes in
UTF-8, and neither fails to write the file nor puts a module in its place. -/
structure WorksOn (r : FinishedRound) (target : Output) (contractName : String) : Prop where
  classOutput : r.output.classOutput = target.classOutput
  servicesDir : r.output.servicesDir = target.servicesDir
  encoding : Text.Encoding.ofName? r.output.encoding = some .utf8
  contracts : ∀ b ∈ r.bindings, IsFileName b.key
  isLine : ∀ name ∈ r.names contractName, IsLine name
  written : r.names contractName ≠ [] →
    target.registryPath contractName ∈ r.outcome.registryFiles
  apart : ∀ q ∈ r.outcome.generatedSources,
    r.start.world.files.reach q ≠ r.start.world.files.reach (target.registryPath contractName)

/-- The session once it is settled which providers are accepted. -/
def asked (r : FinishedRound) : Session := (r.processor.accepted.run r.start).2

theorem run_accepted (r : FinishedRound) :
    r.processor.accepted.run r.start = (.ok r.bindings, r.asked) := by
  obtain ⟨bindings, asked, haccepted, -, -⟩ := Processor.of_process r.ends
  rw [FinishedRound.bindings, FinishedRound.asked, haccepted]

theorem finished (r : FinishedRound) : r.asked.world.files = r.start.world.files ∧
    Finished r.processor r.output r.asked r.bindings r.outcome r.leftOutput r.finish := by
  have hrun := r.run_accepted
  obtain ⟨bindings, asked, haccepted, hfinished, -⟩ := Processor.of_process r.ends
  rw [haccepted] at hrun
  obtain ⟨hbindings, rfl⟩ := Prod.mk.inj hrun
  obtain rfl := Except.ok.inj hbindings
  refine ⟨?_, hfinished⟩
  have hfiles := r.processor.keepsFiles_accepted r.start
  rwa [haccepted] at hfiles

theorem WorksOn.registryPath_eq (h : r.WorksOn target contractName) :
    r.output.registryPath contractName = target.registryPath contractName := by
  rw [Output.registryPath, Output.registryPath, Output.resourcePath, Output.resourcePath,
    Output.registryFile, Output.registryFile, h.classOutput, h.servicesDir]

theorem keeps (r : FinishedRound) : r.start.world.files.Keeps r.finish.world.files := by
  obtain ⟨hfiles, hfinished⟩ := r.finished
  exact hfiles ▸ hfinished.keeps

namespace WorksOn

variable (h : r.WorksOn target contractName) (hname : IsFileName contractName)

include h hname

/-- A round leaves the registry file of a contract alone that it accepts nothing for. -/
theorem file_registry (hnil : r.names contractName = []) :
    r.finish.world.files.file? (r.start.world.files.reach (target.registryPath contractName)) =
      r.start.world.files.file? (r.start.world.files.reach (target.registryPath contractName)) := by
  obtain ⟨hfiles, hfinished⟩ := r.finished
  have hapart := h.apart
  rw [← h.registryPath_eq, ← hfiles] at hapart ⊢
  exact hfinished.file_registry_of_nil hname h.contracts hapart hnil

/-- A round puts what it accepts for a contract in front of the lines of its registry
file, each line once. -/
theorem read_registry (hne : r.names contractName ≠ [])
    (hlines : FileLines r.start.world.files (target.registryPath contractName) lines) :
    r.finish.world.files.read (target.registryPath contractName) =
      .ok (contentOf (r.names contractName ++ lines).eraseDups) := by
  obtain ⟨hfiles, hfinished⟩ := r.finished
  have hapart := h.apart
  have hwritten := h.written hne
  rw [← h.registryPath_eq, ← hfiles] at hapart hlines
  rw [← h.registryPath_eq] at hwritten ⊢
  refine hfinished.read_registry hname h.contracts hapart hwritten ?_
  rw [Output.bytes?, mergedEntry, hlines.existingLines_eq h.encoding]
  simp only [h.encoding, Text.encode]
  rfl

/-- The lines of a contract's registry file after a round that accepts something for it. -/
theorem fileLines_of_ne_nil (hne : r.names contractName ≠ [])
    (hlines : FileLines r.start.world.files (target.registryPath contractName) lines) :
    FileLines r.finish.world.files (target.registryPath contractName)
      (r.names contractName ++ lines).eraseDups := by
  refine .of_read (h.read_registry hname hne hlines) fun line hline => ?_
  rw [List.mem_eraseDups, List.mem_append] at hline
  exact hline.elim (h.isLine line) (hlines.isLine line)

/-- The lines of a contract's registry file after a round, whether or not the round
accepts anything for the contract. -/
theorem fileLines
    (hlines : FileLines r.start.world.files (target.registryPath contractName) lines) :
    ∃ last, FileLines r.finish.world.files (target.registryPath contractName) last ∧
      ∀ line, line ∈ last ↔ line ∈ r.names contractName ∨ line ∈ lines := by
  by_cases hnil : r.names contractName = []
  · refine ⟨lines, hlines.of_file?_eq r.keeps (h.file_registry hname hnil), fun line => ?_⟩
    simp [hnil]
  · refine ⟨_, h.fileLines_of_ne_nil hname hnil hlines, fun line => ?_⟩
    rw [List.mem_eraseDups, List.mem_append]

end WorksOn

end FinishedRound

/-! ## Many rounds -/

/-- Rounds that follow one another: each starts with the files that the one before it has
left. -/
def Chained : FileTree → List FinishedRound → FileTree → Prop
  | tree, [], after => after = tree
  | tree, r :: rest, after => r.start.world.files = tree ∧ Chained r.finish.world.files rest after

/-- What rounds accept for a contract, the last round first. -/
def latestFirst (contractName : String) (rounds : List FinishedRound) : List String :=
  (rounds.reverse.map (·.names contractName)).flatten

section

variable {target : Output} {contractName : String} {tree after : FileTree}
  {rounds : List FinishedRound} {lines : List String}

theorem latestFirst_cons (r : FinishedRound) (rounds : List FinishedRound) :
    latestFirst contractName (r :: rounds) =
      latestFirst contractName rounds ++ r.names contractName := by
  simp [latestFirst]

theorem latestFirst_eq_nil :
    latestFirst contractName rounds = [] ↔ ∀ r ∈ rounds, r.names contractName = [] := by
  simp [latestFirst]

theorem mem_latestFirst {line : String} :
    line ∈ latestFirst contractName rounds ↔ ∃ r ∈ rounds, line ∈ r.names contractName := by
  simp [latestFirst]

theorem Chained.keeps (h : Chained tree rounds after) : tree.Keeps after := by
  induction rounds generalizing tree with
  | nil => exact h ▸ .refl tree
  | cons r rest ih =>
    obtain ⟨rfl, hrest⟩ := h
    exact r.keeps.trans (ih hrest)

/-- Rounds that accept nothing for a contract leave its registry file alone. -/
theorem Chained.file_registry (hname : IsFileName contractName)
    (hworks : ∀ r ∈ rounds, r.WorksOn target contractName) (h : Chained tree rounds after)
    (hnil : ∀ r ∈ rounds, r.names contractName = []) :
    after.file? (tree.reach (target.registryPath contractName)) =
      tree.file? (tree.reach (target.registryPath contractName)) := by
  induction rounds generalizing tree with
  | nil => rw [h]
  | cons r rest ih =>
    obtain ⟨rfl, hrest⟩ := h
    rw [List.forall_mem_cons] at hworks hnil
    have hfirst := hworks.1.file_registry hname hnil.1
    have hlast := ih hworks.2 hrest hnil.2
    rw [r.keeps.reach] at hlast
    exact hlast.trans hfirst

/-- The lines of a registry file after some rounds. -/
theorem Chained.fileLines (hname : IsFileName contractName)
    (hworks : ∀ r ∈ rounds, r.WorksOn target contractName) (h : Chained tree rounds after)
    (hlines : FileLines tree (target.registryPath contractName) lines) :
    ∃ last, FileLines after (target.registryPath contractName) last ∧
      ∀ line, line ∈ last ↔ line ∈ latestFirst contractName rounds ∨ line ∈ lines := by
  induction rounds generalizing tree lines with
  | nil =>
    refine ⟨lines, h ▸ hlines, fun line => ?_⟩
    simp [latestFirst]
  | cons r rest ih =>
    obtain ⟨rfl, hrest⟩ := h
    rw [List.forall_mem_cons] at hworks
    obtain ⟨middle, hmiddle, hmem⟩ := hworks.1.fileLines hname hlines
    obtain ⟨last, hlast, hlast_mem⟩ := ih hworks.2 hrest hmiddle
    refine ⟨last, hlast, fun line => ?_⟩
    rw [hlast_mem, hmem, latestFirst_cons, List.mem_append, or_assoc]

/-- A registry file after rounds of which some accept something for its contract. -/
theorem Chained.read_registry (hname : IsFileName contractName)
    (hworks : ∀ r ∈ rounds, r.WorksOn target contractName) (h : Chained tree rounds after)
    (hlines : FileLines tree (target.registryPath contractName) lines)
    (hne : latestFirst contractName rounds ≠ []) :
    after.read (target.registryPath contractName) =
      .ok (contentOf (latestFirst contractName rounds ++ lines).eraseDups) := by
  -- By induction on the rounds: the first one settles the lines that the others start from.
  induction rounds generalizing tree lines with
  | nil => exact absurd rfl hne
  | cons r rest ih =>
    obtain ⟨rfl, hrest⟩ := h
    rw [List.forall_mem_cons] at hworks
    rw [latestFirst_cons]
    by_cases hnil : r.names contractName = []
    · have hmiddle := hlines.of_file?_eq r.keeps (hworks.1.file_registry hname hnil)
      rw [latestFirst_cons, hnil, List.append_nil] at hne
      rw [hnil, List.append_nil]
      exact ih hworks.2 hrest hmiddle hne
    · have hread := hworks.1.read_registry hname hnil hlines
      have hmiddle := hworks.1.fileLines_of_ne_nil hname hnil hlines
      by_cases hrest_nil : latestFirst contractName rest = []
      · -- No later round accepts anything, so that the file is as this round has left it.
        have hfile := Chained.file_registry hname hworks.2 hrest (latestFirst_eq_nil.mp hrest_nil)
        have hkeeps := Chained.keeps hrest
        rw [FileTree.read_eq_ok] at hread ⊢
        rw [hkeeps.reach, hfile, hrest_nil]
        exact ⟨hkeeps.locate hread.1, hread.2⟩
      · rw [ih hworks.2 hrest hmiddle hrest_nil, eraseDups_append_eraseDups, List.append_assoc]

theorem Chained.concat {final : FileTree} (h : Chained tree rounds after) {r : FinishedRound}
    (hr : Chained after [r] final) : Chained tree (rounds ++ [r]) final := by
  induction rounds generalizing tree with
  | nil => exact h ▸ hr
  | cons first rest ih => exact ⟨h.1, ih h.2⟩

theorem latestFirst_concat (rounds : List FinishedRound) (r : FinishedRound) :
    latestFirst contractName (rounds ++ [r]) =
      r.names contractName ++ latestFirst contractName rounds := by
  simp [latestFirst]

/-- A round that accepts what the last one did changes no byte. -/
theorem Chained.file_of_repeated (hname : IsFileName contractName)
    (hworks : ∀ r ∈ rounds, r.WorksOn target contractName) (h : Chained tree rounds after)
    (hlines : FileLines tree (target.registryPath contractName) lines) {r again : FinishedRound}
    {final : FileTree} (hr : rounds.getLast? = some r)
    (hagain : again.WorksOn target contractName) (hfinal : Chained after [again] final)
    (hnames : again.names contractName = r.names contractName) :
    final.file? (tree.reach (target.registryPath contractName)) =
      after.file? (tree.reach (target.registryPath contractName)) := by
  by_cases hnil : r.names contractName = []
  · have hfile := hfinal.file_registry hname (List.forall_mem_singleton.mpr hagain)
      (List.forall_mem_singleton.mpr (hnames.trans hnil))
    rwa [h.keeps.reach] at hfile
  · obtain ⟨earlier, rfl⟩ := List.getLast?_eq_some_iff.mp hr
    have hne : latestFirst contractName (earlier ++ [r]) ≠ [] := by
      rw [latestFirst_concat]
      exact List.append_ne_nil_of_left_ne_nil hnil _
    have hne_again : latestFirst contractName (earlier ++ [r] ++ [again]) ≠ [] := by
      rw [latestFirst_concat]
      exact List.append_ne_nil_of_right_ne_nil _ hne
    have hworks_again : ∀ f ∈ earlier ++ [r] ++ [again], f.WorksOn target contractName := by
      rw [List.forall_mem_append]
      exact ⟨hworks, List.forall_mem_singleton.mpr hagain⟩
    have hread := h.read_registry hname hworks hlines hne
    have hread_again := (h.concat hfinal).read_registry hname hworks_again hlines hne_again
    rw [FileTree.read_eq_ok, h.keeps.reach] at hread
    rw [FileTree.read_eq_ok, (h.concat hfinal).keeps.reach] at hread_again
    -- The names of the last round stand in front already, so that naming them again adds nothing.
    have hsame : (latestFirst contractName (earlier ++ [r] ++ [again]) ++ lines).eraseDups =
        (latestFirst contractName (earlier ++ [r]) ++ lines).eraseDups := by
      rw [latestFirst_concat, latestFirst_concat, hnames, List.append_assoc, List.append_assoc,
        eraseDups_self_append]
    rw [hread.2, hread_again.2, hsame]

end

/-- **What a registry file holds after any rounds.** If no round accepts anything for the
contract, the file is as it was. Otherwise it holds what the last round accepted, then
what the one before it did, and so on down to the lines that were there first, each line
once. So no line is ever lost; a round that accepts what the last one did changes no byte;
and which lines there are does not depend on the order of the rounds. -/
theorem registry_over_rounds {target : Output} {contractName : String}
    (hname : IsFileName contractName) {tree after : FileTree} {rounds : List FinishedRound}
    (hworks : ∀ r ∈ rounds, r.WorksOn target contractName) (hchained : Chained tree rounds after)
    {lines : List String} (hlines : FileLines tree (target.registryPath contractName) lines) :
    ((∀ r ∈ rounds, r.names contractName = []) →
      after.file? (tree.reach (target.registryPath contractName)) =
        tree.file? (tree.reach (target.registryPath contractName))) ∧
    ((∃ r ∈ rounds, r.names contractName ≠ []) →
      after.read (target.registryPath contractName) =
        .ok (contentOf (latestFirst contractName rounds ++ lines).eraseDups)) ∧
    (∃ last, FileLines after (target.registryPath contractName) last ∧
      ∀ line, line ∈ last ↔ line ∈ lines ∨ ∃ r ∈ rounds, line ∈ r.names contractName) ∧
    (∀ r again final, rounds.getLast? = some r → again.WorksOn target contractName →
      Chained after [again] final → again.names contractName = r.names contractName →
      final.file? (tree.reach (target.registryPath contractName)) =
        after.file? (tree.reach (target.registryPath contractName))) ∧
    (∀ others final last last', (∀ r ∈ others, r.WorksOn target contractName) →
      Chained tree others final →
      (others.map (·.names contractName)).Perm (rounds.map (·.names contractName)) →
      FileLines after (target.registryPath contractName) last →
      FileLines final (target.registryPath contractName) last' →
      ∀ line, line ∈ last' ↔ line ∈ last) := by
  refine ⟨hchained.file_registry hname hworks, ?_, ?_, ?_, ?_⟩
  · rintro ⟨r, hr, hne⟩
    refine hchained.read_registry hname hworks hlines fun hnil => ?_
    exact hne (latestFirst_eq_nil.mp hnil r hr)
  · obtain ⟨last, hlast, hmem⟩ := hchained.fileLines hname hworks hlines
    refine ⟨last, hlast, fun line => ?_⟩
    rw [hmem, mem_latestFirst, or_comm]
  · intro r again final hr hagain hfinal hnames
    exact hchained.file_of_repeated hname hworks hlines hr hagain hfinal hnames
  · intro others final last last' hothers hchained' hperm hlast hlast' line
    obtain ⟨found, hfound, hmem⟩ := hchained.fileLines hname hworks hlines
    obtain ⟨found', hfound', hmem'⟩ := hchained'.fileLines hname hothers hlines
    rw [hlast.unique hfound, hlast'.unique hfound', hmem, hmem', latestFirst, latestFirst,
      List.mem_flatten, List.mem_flatten]
    simp only [List.map_reverse, List.mem_reverse, hperm.mem_iff]

/-! ### Two rounds, one after the other -/

/-- An output that writes below one directory. -/
def sampleOutput : Output where
  classOutput := ⟨.none, ["o"]⟩
  sourceOutput := ⟨.none, ["o"]⟩
  servicesDir := "s"
  encoding := "utf-8"

/-- A tree with a registry file that has a comment, a blank line and mixed line ends. -/
def sampleTree : FileTree where
  home := []
  nodes := [(["o"], .directory), (["o", "s"], .directory),
    (["o", "s", "a.C"], .file (Text.utf8Bytes "x\r\n#\n\nm.I".toList))]

/-- A session in which one class is marked as a provider. -/
def sampleSession (files : FileTree) (name : String) : Session where
  model := .static {
    roots := []
    ignoreDirs := []
    encoding := "utf-8"
    elements := some [
      ("a.C", { module := "a", qualname := "C" }),
      ("m." ++ name, {
        module := "m"
        qualname := name
        supertypes := ["a.C"]
        annotations := [⟨"p", [("value", .literal (.str "a.C"))]⟩] })] }
  world := { files, modules := [], classes := #[] }

/-- A round in such a session. -/
def sampleRound? (files : FileTree) (name : String) : Option FinishedRound :=
  FinishedRound.run? ⟨["p"], ⟨"g", ""⟩⟩ sampleOutput (sampleSession files name)

def sampleFirst : FinishedRound := (sampleRound? sampleTree "I").get (by decide +kernel)

def sampleSecond : FinishedRound :=
  (sampleRound? sampleFirst.finish.world.files "J").get (by decide +kernel)

theorem sampleRounds_workOn : ∀ r ∈ [sampleFirst, sampleSecond], r.WorksOn sampleOutput "a.C" := by
  rw [List.forall_mem_cons, List.forall_mem_singleton]
  constructor
  · constructor <;> decide +kernel
  · constructor <;> decide +kernel

theorem registry_over_rounds_two :
    Chained sampleTree [sampleFirst, sampleSecond] sampleSecond.finish.world.files ∧
      sampleSecond.finish.world.files.read (sampleOutput.registryPath "a.C") =
        .ok (contentOf ["m.J", "m.I", "x", "#", ""]) := by
  have hlines : FileLines sampleTree (sampleOutput.registryPath "a.C")
      (readLines (Text.normalizeNewlines "x\r\n#\n\nm.I".toList)) :=
    .text (by decide +kernel) (Text.decode_utf8Bytes _)
  have hchained : Chained sampleTree [sampleFirst, sampleSecond]
      sampleSecond.finish.world.files := by
    refine ⟨?_, ?_, rfl⟩
    · decide +kernel
    · decide +kernel
  refine ⟨hchained, ?_⟩
  rw [(registry_over_rounds (by decide) sampleRounds_workOn hchained hlines).2.1
    ⟨sampleFirst, List.mem_cons_self, by decide +kernel⟩]
  decide +kernel

end ProviderRegistry
