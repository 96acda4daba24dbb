import ProviderRegistry.Proofs.Readers
import ProviderRegistry.Proofs.Resolving
import ProviderRegistry.Proofs.Rounds

/-!
# The runtime reads what rounds write

A service loader below the class output of a round finds, after the round, the names that
the round accepted and then those that it found before (`providerNames_after_round`). It
fails after the round just when it did before: the round writes only names in which the
loader finds no fault, and keeps every line that it found.
-/

namespace ProviderRegistry

open Symbols Registry World

/-! ## Names of objects -/

namespace World

/-- In a world a computation changes nothing, and gives the same whatever files there are. -/
def Steady {α : Type} (w : World) (action : Run α) : Prop :=
  ∃ result, ∀ files, action.run { w with files } = (result, { w with files })

section

variable {α β : Type} {w : World}

theorem Steady.bind {action : Run α} {next : α → Run β} (h : Steady w action)
    (hnext : ∀ a, Steady w (next a)) : Steady w (action >>= next) := by
  obtain ⟨result, hrun⟩ := h
  cases result with
  | error e =>
    refine ⟨.error e, fun files => ?_⟩
    rw [Leaves.run_bind, hrun]
  | ok a =>
    obtain ⟨result, hresult⟩ := hnext a
    refine ⟨result, fun files => ?_⟩
    rw [Leaves.run_bind, hrun]
    exact hresult files

theorem steady_getAttribute (w : World) (o : Object) (name : String) :
    Steady w (getAttribute o name) := by
  -- Attributes are looked up in modules and classes only.
  have hfound (files : FileTree) : attribute? { w with files } o name = attribute? w o name := by
    cases o <;> rfl
  have hmissing (files : FileTree) :
      missingAttribute { w with files } o name = missingAttribute w o name := by
    cases o <;> rfl
  cases hattribute : attribute? w o name with
  | none =>
    refine ⟨.error { kind := "AttributeError", message := missingAttribute w o name },
      fun files => ?_⟩
    rw [getAttribute, Run.world, Leaves.run_get_bind, hfound, hmissing, hattribute]
    rfl
  | some found =>
    refine ⟨.ok found, fun files => ?_⟩
    rw [getAttribute, Run.world, Leaves.run_get_bind, hfound, hattribute]
    rfl

theorem steady_textAttribute (w : World) (o : Object) (name : String) :
    Steady w (textAttribute o name) := by
  refine (steady_getAttribute w o name).bind fun value => ?_
  split
  · exact ⟨_, fun _ => rfl⟩
  · exact ⟨_, fun _ => rfl⟩

theorem steady_qualifiedNameOf (w : World) (o : Object) : Steady w (qualifiedNameOf o) := by
  refine (steady_textAttribute w o _).bind fun module => ?_
  exact (steady_textAttribute w o _).bind fun name => ⟨_, fun _ => rfl⟩

end

/-! ## What a loader finds -/

namespace ServiceLoader

/-- The names on some lines, unless one of them has a fault. -/
theorem toOption_addNames (path : Path) (lineNumber : Nat) (lines : List (List Char))
    (names : List String) :
    (addNames path lineNumber lines names.eraseDups).toOption =
      if ∀ line ∈ lines, IsLegal line then some (names ++ lines.filterMap nameOn?).eraseDups
      else none := by
  -- By induction on the lines; the names found so far are kept with duplicates left out.
  induction lines generalizing lineNumber names with
  | nil => simp [addNames, Except.toOption]
  | cons line rest ih =>
    rw [addNames]
    cases hline : parseLine path lineNumber line with
    | error e =>
      have hillegal : ¬ IsLegal line := by
        intro hlegal
        rw [parseLine_eq_ok.mpr ⟨hlegal, rfl⟩] at hline
        cases hline
      rw [if_neg fun h => hillegal (h line List.mem_cons_self)]
      rfl
    | ok name =>
      obtain ⟨hlegal, hname⟩ := parseLine_eq_ok.mp hline
      have hall : (∀ l ∈ line :: rest, IsLegal l) ↔ ∀ l ∈ rest, IsLegal l := by
        rw [List.forall_mem_cons]
        exact and_iff_right hlegal
      simp only [hall, List.filterMap_cons, hname]
      cases name with
      | none => exact ih (lineNumber + 1) names
      | some name =>
        have hadd : (if names.eraseDups.contains name = true then names.eraseDups
            else names.eraseDups ++ [name]) = (names ++ [name]).eraseDups := by
          rw [eraseDups_concat]
          simp only [List.contains_iff_mem, List.mem_eraseDups]
        simp only [hadd]
        rw [ih, List.append_assoc, List.singleton_append]

section

variable {loader : ServiceLoader} {w : World} {root : Path} {contractName : String}

/-- Below one root a loader finds one file at most. -/
theorem filesIn_singleton (w : World) (name : String) (root : Path) :
    ResourceLoader.filesIn w name [root] [] =
      (w.files.isFile (root.child name)).map fun found =>
        if found then [root.child name] else [] := by
  rw [ResourceLoader.filesIn]
  cases hfile : w.files.isFile (root.child name) with
  | error e => rfl
  | ok found =>
    cases found with
    | false => rfl
    | true =>
      obtain ⟨l, hl⟩ := FileTree.exists_locate_of_isFile hfile
      rw [hl]
      rfl

/-- The path that a loader looks at below its only root. -/
def candidate (loader : ServiceLoader) (root : Path) (contractName : String) : Path :=
  root.child (Naming.registryFile contractName loader.servicesDir)

/-- What the loader finds in one file. -/
theorem toOption_namesIn {path : Path} {bytes : List UInt8} {text : List Char}
    (hread : w.files.read path = .ok bytes) (hdecode : Text.decode .utf8 bytes = .ok text) :
    ((loader.namesIn [] path).run w).1.toOption =
      if ∀ line ∈ readLines (Text.normalizeNewlines text), IsReadable line then
        some ((readLines (Text.normalizeNewlines text)).flatMap namesOn).eraseDups
      else none := by
  have hutf8 : Text.Encoding.ofName? "utf-8" = some .utf8 := by decide
  have htext : w.files.readText path "utf-8" = .ok (Text.normalizeNewlines text) := by
    simp only [FileTree.readText, FileTree.readTextWith, hread, hutf8, hdecode]
  have hnames := toOption_addNames path 1 (Text.splitLines (Text.normalizeNewlines text)) []
  obtain ⟨hlegal, hprovided⟩ := provided_readLines (Text.normalizeNewlines text)
  rw [List.eraseDups_nil, List.nil_append, hprovided] at hnames
  simp only [hlegal] at hnames
  rw [← hnames, namesIn, Run.world, Leaves.run_get_bind, htext]
  simp only
  cases addNames path 1 (Text.splitLines (Text.normalizeNewlines text)) [] <;> rfl

variable (hcontract : ((qualifiedNameOf loader.service).run w).1 = .ok contractName)
  (hroots : loader.resources.roots = some [root])

include hcontract hroots

/-- A loader with one root looks for one file, whatever files there are. -/
theorem run_providerNames (files : FileTree) :
    loader.providerNames.run { w with files } =
      match files.isFile (loader.candidate root contractName) with
      | .error e => (.error (Raised.ofFile e), { w with files })
      | .ok true => (loader.namesIn [] (loader.candidate root contractName)).run { w with files }
      | .ok false => (.ok [], { w with files }) := by
  obtain ⟨result, hresult⟩ := steady_qualifiedNameOf w loader.service
  have hname : result = .ok contractName := by
    have hrun : (qualifiedNameOf loader.service).run w = (result, w) := hresult w.files
    rwa [hrun] at hcontract
  have hresources : (loader.resources.resources
      (Naming.registryFile contractName loader.servicesDir)).run { w with files } =
      (Run.ofFile (ResourceLoader.filesIn { w with files }
        (Naming.registryFile contractName loader.servicesDir) [root] [])).run { w with files } := by
    rw [ResourceLoader.resources, Leaves.run_bind]
    change (Run.ofFile (ResourceLoader.filesIn _ _ (loader.resources.directories _) [])).run _ = _
    rw [ResourceLoader.directories, hroots]
    rfl
  rw [providerNames, Leaves.run_bind, hresult, hname]
  simp only
  rw [Leaves.run_bind, hresources, filesIn_singleton]
  dsimp only [candidate]
  cases files.isFile (root.child (Naming.registryFile contractName loader.servicesDir)) with
  | error e => rfl
  | ok found =>
    cases found with
    | false => rfl
    | true =>
      change ([root.child (Naming.registryFile contractName loader.servicesDir)].foldlM
        loader.namesIn []).run _ = _
      rw [List.foldlM_cons, Leaves.run_bind]
      rcases (loader.namesIn [] (root.child (Naming.registryFile contractName
        loader.servicesDir))).run { w with files } with ⟨result, s⟩
      cases result <;> rfl

/-- **What a loader with one root finds**: the names on the lines of the registry file of
its contract, unless one of them has a fault. -/
theorem toOption_providerNames {files : FileTree} {lines : List String}
    (hfits : FileTree.Fits (loader.candidate root contractName))
    (hlines : FileLines files (loader.candidate root contractName) lines) :
    (loader.providerNames.run { w with files }).1.toOption =
      if ∀ line ∈ lines, IsReadable line then some (lines.flatMap namesOn).eraseDups else none := by
  rw [run_providerNames hcontract hroots]
  cases hlines with
  | absent habsent =>
    rw [FileTree.isFile_of_file?_eq_none hfits habsent, if_pos (List.forall_mem_nil _)]
    rfl
  | text hread hdecode =>
    rw [FileTree.isFile_of_read hread]
    exact toOption_namesIn (w := { w with files }) hread hdecode

/-- A loader finds each name once. -/
theorem map_eraseDups_providerNames {files : FileTree} {lines : List String}
    (hlines : FileLines files (loader.candidate root contractName) lines) :
    (loader.providerNames.run { w with files }).1.toOption.map (·.eraseDups) =
      (loader.providerNames.run { w with files }).1.toOption := by
  by_cases hfits : FileTree.Fits (loader.candidate root contractName)
  · rw [toOption_providerNames hcontract hroots hfits hlines]
    split
    · rw [Option.map_some, eraseDups_eraseDups]
    · rfl
  · -- A path that does not fit leads nowhere, so that there is nothing to find.
    rw [run_providerNames hcontract hroots]
    cases hfile : files.isFile (loader.candidate root contractName) with
    | error e => rfl
    | ok found =>
      cases found with
      | false => rfl
      | true =>
        obtain ⟨l, hl⟩ := FileTree.exists_locate_of_isFile hfile
        exact absurd (FileTree.fits_of_locate hl) hfits

end

end ServiceLoader

end World

/-! ## Rounds and loaders -/

theorem IsDotted.isLine {name : String} (h : IsDotted name) : IsLine name :=
  ⟨h.notMem (by decide) (by decide), h.notMem (by decide) (by decide)⟩

namespace FinishedRound

variable {r : FinishedRound} {model : StaticModel}

/-- What a round over sources accepts has dotted names. -/
theorem isDotted_of_mem_bindings (hmodel : r.start.model = .static model)
    (hnamed : model.WellNamed) : ∀ b ∈ r.bindings, IsDotted b.key ∧ IsDotted b.name := by
  obtain ⟨scanned, reports, hscan, hbindings, -⟩ := Processor.of_run_accepted hmodel r.run_accepted
  have hscanned := hnamed.scan r.start.world.files r.start.reports
  rw [hscan] at hscanned
  rw [hbindings]
  exact isDotted_of_mem_acceptedBindings hscanned _

/-- A round writes the registry file of every entry. -/
def WritesAll (r : FinishedRound) : Prop :=
  ∀ e ∈ r.outcome.entries, r.output.registryPath e.contractName ∈ r.outcome.registryFiles

instance (r : FinishedRound) : Decidable r.WritesAll := inferInstanceAs (Decidable (∀ _ ∈ _, _))

theorem WritesAll.mem_registryFiles (h : r.WritesAll) {contractName : String}
    (hkey : contractName ∈ r.bindings.map (·.key)) :
    r.output.registryPath contractName ∈ r.outcome.registryFiles := by
  obtain ⟨-, hfinished⟩ := r.finished
  obtain ⟨first, hfirst, rfl⟩ := List.mem_map.mp (mem_firsts_key.mpr hkey)
  refine h (mergedEntry r.output r.asked.world.files r.bindings first.key) ?_
  rw [hfinished.entries]
  exact List.mem_map_of_mem hfirst

/-- A round that writes every registry file leaves the directory of registry files where
its path says, so that the path of a short name fits. -/
theorem WritesAll.fits (h : r.WritesAll) (hkeys : ∀ b ∈ r.bindings, IsFileName b.key)
    (hne : r.bindings ≠ []) {contractName : String} (hname : IsFileName contractName)
    (hlength : r.names contractName = [] → contractName.utf8ByteSize ≤ FileTree.nameLimit) :
    FileTree.Fits (r.output.registryPath contractName) := by
  obtain ⟨-, hfinished⟩ := r.finished
  have hwritten {key : String} (hkey : key ∈ r.bindings.map (·.key)) :
      FileTree.Fits (r.output.registryPath key) :=
    FileTree.fits_of_locate (hfinished.locate_of_mem_registryFiles (h.mem_registryFiles hkey))
  -- The file stands beside that of another contract, or is written itself.
  by_cases hnil : r.names contractName = []
  · obtain ⟨b, hb⟩ := List.exists_mem_of_ne_nil _ hne
    have hfits := hwritten (List.mem_map_of_mem hb)
    rw [FileTree.Fits, Output.resourcePath_registryFile (hkeys b hb),
      List.forall_mem_append] at hfits
    rw [FileTree.Fits, Output.resourcePath_registryFile hname, List.forall_mem_append]
    exact ⟨hfits.1, List.forall_mem_singleton.mpr (hlength hnil)⟩
  · refine hwritten ?_
    by_contra hkey
    exact hnil (acceptedFor_eq_nil.mpr hkey)

/-- What the loader finds in the lines of a registry file after a round. -/
theorem WorksOn.exists_fileLines {contractName : String} {lines : List String}
    (h : r.WorksOn r.output contractName) (hname : IsFileName contractName)
    (hdotted : ∀ name ∈ r.names contractName, IsDotted name)
    (hlines : FileLines r.start.world.files (r.output.registryPath contractName) lines) :
    ∃ last, FileLines r.finish.world.files (r.output.registryPath contractName) last ∧
      ((∀ line ∈ last, IsReadable line) ↔ ∀ line ∈ lines, IsReadable line) ∧
      (last.flatMap namesOn).eraseDups =
        (r.names contractName ++ (lines.flatMap namesOn).eraseDups).eraseDups := by
  by_cases hnil : r.names contractName = []
  · refine ⟨lines, hlines.of_file?_eq r.keeps (h.file_registry hname hnil), Iff.rfl, ?_⟩
    rw [hnil, List.nil_append, eraseDups_eraseDups]
  · refine ⟨_, h.fileLines_of_ne_nil hname hnil hlines, ?_, ?_⟩
    · simp only [List.mem_eraseDups, List.forall_mem_append]
      exact and_iff_right fun name hmem => isReadable_of_isDotted (hdotted name hmem)
    · have hnames : (r.names contractName).flatMap namesOn = r.names contractName := by
        rw [List.flatMap_congr fun name hmem => namesOn_of_isDotted (hdotted name hmem)]
        exact List.flatMap_singleton' _
      rw [eraseDups_flatMap_eraseDups, List.flatMap_append, hnames, eraseDups_append_eraseDups]

/-- A round over sources, and a loader that reads what the round writes: the round writes
all its entries in UTF-8 and puts no module in the place of the registry file of a
contract, whose lines were `lines`, and the loader of that contract has the class output of
the round for its only root. -/
structure Serves (r : FinishedRound) (loader : ServiceLoader) (w : World) (contractName : String)
    (lines : List String) : Prop where
  model : ∃ model, r.start.model = .static model ∧ model.WellNamed
  encoding : Text.Encoding.ofName? r.output.encoding = some .utf8
  writesAll : r.WritesAll
  isFileName : IsFileName contractName
  apart : ∀ q ∈ r.outcome.generatedSources, r.start.world.files.reach q ≠
    r.start.world.files.reach (r.output.registryPath contractName)
  fileLines : FileLines r.start.world.files (r.output.registryPath contractName) lines
  contract : ((qualifiedNameOf loader.service).run w).1 = .ok contractName
  roots : loader.resources.roots = some [r.output.classOutput]
  servicesDir : loader.servicesDir = r.output.servicesDir

namespace Serves

variable {loader : ServiceLoader} {w : World} {contractName : String} {lines : List String}
  (h : r.Serves loader w contractName lines)

include h

theorem isDotted : ∀ b ∈ r.bindings, IsDotted b.key ∧ IsDotted b.name := by
  obtain ⟨model, hmodel, hnamed⟩ := h.model
  exact r.isDotted_of_mem_bindings hmodel hnamed

theorem isDotted_names : ∀ name ∈ r.names contractName, IsDotted name := by
  intro name hmem
  obtain ⟨b, hb, rfl⟩ := List.mem_map.mp hmem
  exact (h.isDotted b (List.mem_filter.mp hb).1).2

theorem worksOn : r.WorksOn r.output contractName where
  classOutput := rfl
  servicesDir := rfl
  encoding := h.encoding
  contracts := fun b hb => (h.isDotted b hb).1.isFileName
  isLine := fun name hmem => (h.isDotted_names name hmem).isLine
  written := fun hne => h.writesAll.mem_registryFiles (by
    by_contra hkey
    exact hne (acceptedFor_eq_nil.mpr hkey))
  apart := h.apart

theorem candidate_eq :
    loader.candidate r.output.classOutput contractName = r.output.registryPath contractName := by
  rw [ServiceLoader.candidate, h.servicesDir]
  rfl

end Serves

end FinishedRound

/-- An output that writes below one directory. -/
def providersOutput : Output where
  classOutput := ⟨.none, ["o"]⟩
  sourceOutput := ⟨.none, ["o"]⟩
  servicesDir := Naming.servicesDir
  encoding := "utf-8"

/-- A source with a contract and a provider of it. -/
def providersSource : Node :=
  .file (Text.utf8Bytes "class C:0\n@p('m.C')\nclass I(C):0\n".toList)

def providersModel : StaticModel where
  roots := [⟨.none, []⟩]
  ignoreDirs := []
  encoding := "utf-8"

/-- A session over sources that have not been read yet. -/
def providersSession (nodes : Table Location Node) : Session where
  model := .static providersModel
  world := { files := ⟨[], (["m.py"], providersSource) :: nodes⟩, modules := [], classes := #[] }

/-- A round over the source, with other files beside it. -/
def providersRound? (nodes : Table Location Node) : Option FinishedRound :=
  FinishedRound.run? ⟨["p"], ⟨"g", ""⟩⟩ providersOutput (providersSession nodes)

/-- A world with one class, which is a contract. -/
def contractWorld (qualname : String) : World where
  files := .empty []
  modules := []
  classes := #[{
    name := qualname, qualname, module := "m", bases := [], order := [0], metaclass := .plain
    layout := "object" }]

/-- A loader of that contract. -/
def contractLoader : ServiceLoader where
  service := .type 0
  resources := { roots := some [⟨.none, ["o"]⟩] }

/-- A registry file with a comment, a line that ends in the middle of another, and a name
that the round accepts. -/
def providersNodes : Table Location Node :=
  [(["o"], .directory), (["o", "META-INF"], .directory),
    (["o", "META-INF", "services"], .directory),
    (["o", "META-INF", "services", "m.C"],
      .file (Text.utf8Bytes "x.Y # c\x0cz\r\n\n m.I\nx.Y".toList))]

def providersRound : FinishedRound := (providersRound? providersNodes).get (by decide +kernel)

theorem providersRound_given : providersRound.output = providersOutput ∧
    providersRound.start = providersSession providersNodes :=
  (FinishedRound.of_run?_eq_some (Option.some_get _).symm).2

theorem providersRound_serves : providersRound.Serves contractLoader (contractWorld "C") "m.C"
    ["x.Y # c\x0cz", "", " m.I", "x.Y"] := by
  obtain ⟨houtput, hstart⟩ := providersRound_given
  have hwritten : providersRound.WritesAll ∧ providersRound.outcome.generatedSources = [] := by
    decide +kernel
  have hlines : readLines (Text.normalizeNewlines "x.Y # c\x0cz\r\n\n m.I\nx.Y".toList) =
      ["x.Y # c\x0cz", "", " m.I", "x.Y"] := by
    decide +kernel
  constructor
  · exact ⟨providersModel, by rw [hstart]; rfl, .empty, .nil⟩
  · rw [houtput]
    decide
  · exact hwritten.1
  · decide
  · rw [hwritten.2]
    exact List.forall_mem_nil _
  · rw [houtput, hstart, ← hlines]
    exact .text (by decide +kernel) (Text.decode_utf8Bytes _)
  · decide +kernel
  · rw [houtput]
    decide
  · rw [houtput]
    rfl

/-- The characters of a contract's name, too many for a file. -/
def longName : List Char := 'm' :: '.' :: List.replicate 256 'k'

def firstRound : FinishedRound := (providersRound? []).get (by decide +kernel)

theorem firstRound_given :
    firstRound.output = providersOutput ∧ firstRound.start = providersSession [] :=
  (FinishedRound.of_run?_eq_some (Option.some_get _).symm).2

theorem isFileName_longName : IsFileName (String.ofList longName) where
  noSlash := by rw [String.toList_ofList]; decide
  ne_empty h := by
    have hchars := congrArg String.toList h
    rw [String.toList_ofList] at hchars
    cases hchars
  ne_dot h := by
    have hchars := congrArg String.toList h
    rw [String.toList_ofList] at hchars
    cases hchars
  ne_dots h := by
    have hchars := congrArg String.toList h
    rw [String.toList_ofList] at hchars
    cases hchars

theorem registryPath_longName : providersOutput.registryPath (String.ofList longName) =
    ⟨.none, ["o", "META-INF", "services", String.ofList longName]⟩ := by
  have hdirectory : providersOutput.registryDirectory = ⟨.none, ["o", "META-INF", "services"]⟩ := by
    decide +kernel
  rw [Output.resourcePath_registryFile isFileName_longName, hdirectory]
  rfl

theorem firstRound_serves : firstRound.Serves contractLoader
    (contractWorld (String.ofList (List.replicate 256 'k'))) (String.ofList longName) [] := by
  obtain ⟨houtput, hstart⟩ := firstRound_given
  have hwritten : firstRound.WritesAll ∧ firstRound.outcome.generatedSources = [] := by
    decide +kernel
  constructor
  · exact ⟨providersModel, by rw [hstart]; rfl, .empty, .nil⟩
  · rw [houtput]
    decide
  · exact hwritten.1
  · exact isFileName_longName
  · rw [hwritten.2]
    exact List.forall_mem_nil _
  · rw [houtput, registryPath_longName, hstart]
    exact .absent (by decide +kernel)
  · decide +kernel
  · rw [houtput]
    decide
  · rw [houtput]
    rfl

/-- The path of the long name, in a tree without the directory and in one with it. -/
theorem isFile_longName :
    (providersSession []).world.files.isFile
        ⟨.none, ["o", "META-INF", "services", String.ofList longName]⟩ = .ok false ∧
      firstRound.finish.world.files.isFile
        ⟨.none, ["o", "META-INF", "services", String.ofList longName]⟩ =
          .error ⟨.nameTooLong, ⟨.none, ["o", "META-INF", "services", String.ofList longName]⟩⟩ := by
  have hnull : Path.hasNull ⟨.none, ["o", "META-INF", "services", String.ofList longName]⟩ =
      false := by
    rw [Path.hasNull, List.any_eq_false]
    intro part hpart
    have hlong : (String.ofList longName).toList.contains (Char.ofNat 0) = false := by
      rw [String.toList_ofList]
      decide
    simp only [List.mem_cons, List.not_mem_nil, or_false] at hpart
    rcases hpart with rfl | rfl | rfl | rfl
    · decide
    · decide
    · decide
    · rw [hlong]
      decide
  have hlocate (tree : FileTree) :
      tree.locate ⟨.none, ["o", "META-INF", "services", String.ofList longName]⟩ =
        tree.follow tree.home ["o", "META-INF", "services", String.ofList longName] := by
    rw [FileTree.locate, hnull]
    rfl
  have hbefore : (providersSession []).world.files.follow (providersSession []).world.files.home
      ["o", "META-INF", "services", String.ofList longName] = .error .notFound := by
    decide +kernel
  have hafter : firstRound.finish.world.files.follow firstRound.finish.world.files.home
      ["o", "META-INF", "services", String.ofList longName] = .error .nameTooLong := by
    decide +kernel
  constructor
  · rw [FileTree.isFile, FileTree.find?, hlocate, hbefore]
  · rw [FileTree.isFile, FileTree.find?, hlocate, hafter]

end ProviderRegistry
