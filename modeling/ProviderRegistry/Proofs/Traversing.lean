import ProviderRegistry.Proofs.ModuleFiles
import ProviderRegistry.Proofs.ProviderNames

/-!
# Names from any number of roots

A loader goes through its roots in order, and through the registry file below each line by line.
What it comes across are findings: the name on a line, or a fault, for a line that names nothing
that could be a provider and for a file that is no text. Without faults the names found are the
result, each once; otherwise the first fault is raised (`providerNames_over_roots`). A file that
several roots lead to is read below the first of them.

All files are looked for before any is read. Looking for a file fails in one way, which is an
error of the system and none of the loader's: at a name that is longer than any file's.
-/

namespace ProviderRegistry

/-! ## Lines and names -/

namespace Text

/-- The lines of a text do not depend on how line ends are spelled. -/
theorem splitLines_normalizeNewlines (text : List Char) :
    splitLines (normalizeNewlines text) = splitLines text := by
  fun_induction normalizeNewlines text with
  | case1 => rfl
  | case2 rest ih => rw [splitLines_newline, splitLines, ih]
  | case3 rest hpair ih =>
    have hboundary : isLineBoundary '\r' = true := by decide
    have hcons := splitLines.eq_3 '\r' rest fun after _ h => hpair after h
    rw [splitLines_newline, ih, hcons, if_pos hboundary]
  | case4 c rest hpair hreturn ih =>
    have hcons (more : List Char) : splitLines (c :: more) =
        if isLineBoundary c then [] :: splitLines more else consFirst c (splitLines more) :=
      splitLines.eq_3 c more fun _ h => absurd h hreturn
    rw [hcons, hcons, ih]

end Text

namespace Registry

/-- Identifiers with dots or colons between them. -/
inductive NamesProvider : List Char → Prop
  | one {part : List Char} (hpart : Text.isIdentifier part = true) : NamesProvider part
  | more {part rest : List Char} {separator : Char} (hpart : Text.isIdentifier part = true)
      (hseparator : separator = '.' ∨ separator = ':') (hrest : NamesProvider rest) :
      NamesProvider (part ++ separator :: rest)

/-- What separates the identifiers of a name is in none of them. -/
theorem separator_of_isIdentifier {part : List Char} (h : Text.isIdentifier part = true) :
    ∀ c ∈ part, (c == '.' || c == ':') = false := by
  intro c hc
  have hname := Text.isNameChar_of_isIdentifier h c hc
  have hapart : Text.isNameChar '.' = false ∧ Text.isNameChar ':' = false := by decide
  rw [Bool.or_eq_false_iff, beq_eq_false_iff_ne, beq_eq_false_iff_ne]
  constructor
  · rintro rfl
    exact absurd hname (by rw [hapart.1]; exact Bool.false_ne_true)
  · rintro rfl
    exact absurd hname (by rw [hapart.2]; exact Bool.false_ne_true)

/-- Up to its first separator a name is one identifier. -/
theorem isProviderName_append {part rest : List Char} {separator : Char}
    (hpart : ∀ c ∈ part, (c == '.' || c == ':') = false)
    (hseparator : (separator == '.' || separator == ':') = true) :
    isProviderName (part ++ separator :: rest) =
      (Text.isIdentifier part && isProviderName rest) := by
  have hcut : Text.pieces (fun c => c == '.' || c == ':') (part ++ separator :: rest) =
      Text.pieces (fun c => c == '.' || c == ':') part ++
        Text.pieces (fun c => c == '.' || c == ':') rest := Text.pieces_append hseparator part rest
  rw [isProviderName, isProviderName, hcut, Text.pieces_eq_singleton hpart,
    List.singleton_append, List.all_cons]

/-- Without separators a name is one identifier. -/
theorem isProviderName_part {part : List Char}
    (hpart : ∀ c ∈ part, (c == '.' || c == ':') = false) :
    isProviderName part = Text.isIdentifier part := by
  rw [isProviderName, Text.pieces_eq_singleton hpart, List.all_cons, List.all_nil, Bool.and_true]

theorem isProviderName_iff {name : List Char} :
    isProviderName name = true ↔ NamesProvider name := by
  constructor
  · intro h
    -- By induction on the length, from the first separator to what comes after it.
    induction hlength : name.length using Nat.strong_induction_on generalizing name with
    | _ n ih =>
      cases hfirst : name.find? fun c => c == '.' || c == ':' with
      | none =>
        simp only [List.find?_eq_none, Bool.not_eq_true] at hfirst
        rw [isProviderName_part hfirst] at h
        exact .one h
      | some separator =>
        obtain ⟨hseparator, part, rest, rfl, hpart⟩ := List.find?_eq_some_iff_append.mp hfirst
        have hpart' : ∀ c ∈ part, (c == '.' || c == ':') = false := fun c hc =>
          (Bool.not_eq_true' _).mp (hpart c hc)
        rw [isProviderName_append hpart' hseparator, Bool.and_eq_true] at h
        have hshorter : rest.length < n := by
          rw [← hlength, List.length_append, List.length_cons]
          omega
        exact .more h.1 (by simpa using hseparator) (ih _ hshorter h.2 rfl)
  · intro h
    induction h with
    | one hpart => rw [isProviderName_part (separator_of_isIdentifier hpart), hpart]
    | more hpart hseparator _ ih =>
      rw [isProviderName_append (separator_of_isIdentifier hpart) (by simpa using hseparator),
        hpart, ih]
      rfl

instance (name : List Char) : Decidable (NamesProvider name) :=
  decidable_of_iff _ isProviderName_iff

end Registry

/-! ## Files -/

section

variable {α β : Type} [BEq β] (f : α → β)

/-- The elements of a list that are the first with their image. -/
def firstOfEach : List α → List α
  | [] => []
  | a :: rest => a :: (firstOfEach rest).filter fun b => !(f b == f a)

theorem firstOfEach_sublist (l : List α) : (firstOfEach f l).Sublist l := by
  induction l with
  | nil => exact .slnil
  | cons a rest ih => exact (List.filter_sublist.trans ih).cons_cons a

variable [LawfulBEq β]

theorem map_firstOfEach (l : List α) : (firstOfEach f l).map f = (l.map f).eraseDups := by
  induction l with
  | nil => rfl
  | cons a rest ih =>
    rw [firstOfEach, List.map_cons, List.map_cons, List.eraseDups_cons,
      Registry.eraseDups_filter, ← ih, List.filter_map]
    rfl

theorem find?_of_mem_firstOfEach {l : List α} {a : α} (h : a ∈ firstOfEach f l) :
    l.find? (fun b => f b == f a) = some a := by
  induction l with
  | nil => cases h
  | cons first rest ih =>
    rw [List.find?_cons]
    rcases List.mem_cons.mp h with rfl | h
    · rw [beq_self_eq_true]
    · obtain ⟨hrest, hne⟩ := List.mem_filter.mp h
      have hfirst : (f first == f a) = false := by
        rw [BEq.comm]
        exact (Bool.not_eq_true' _).mp hne
      rw [hfirst]
      exact ih hrest

end

namespace FileTree

variable {tree : FileTree} {p : Path}

/-- Whether the way along a path ends at a name that is too long. -/
def tooLong (tree : FileTree) (p : Path) : Bool := tree.locate p matches .error .nameTooLong

/-- The files that some paths lead to, each by the first of the paths that lead to it. -/
def filesAmong (tree : FileTree) (paths : List Path) : List Path :=
  firstOfEach tree.reach (paths.filter tree.hasFile)

/-- Whether there is a file can be told, unless a name on the way is too long. -/
theorem isFile_eq (tree : FileTree) (p : Path) : tree.isFile p =
    if tree.tooLong p then .error ⟨.nameTooLong, p⟩ else .ok (tree.hasFile p) := by
  rw [tooLong, hasFile, isFile, find?]
  cases tree.locate p with
  | error cause => cases cause <;> rfl
  | ok l =>
    simp only [Bool.false_eq_true, if_false]
    cases tree.node? l with
    | none => rfl
    | some node => cases node <;> rfl

/-- No two of the files stand at the same place. -/
theorem nodup_reach_filesAmong (tree : FileTree) (paths : List Path) :
    ((tree.filesAmong paths).map tree.reach).Nodup := by
  rw [filesAmong, map_firstOfEach]
  exact Registry.eraseDups_nodup _

/-- A file that one of the paths leads to is there by the first path that leads to it. -/
theorem exists_mem_filesAmong {paths : List Path} (hmem : p ∈ paths) (h : tree.hasFile p = true) :
    ∃ first ∈ tree.filesAmong paths,
      (paths.filter tree.hasFile).find? (fun q => tree.reach q == tree.reach p) = some first := by
  have hplace : tree.reach p ∈ (tree.filesAmong paths).map tree.reach := by
    rw [filesAmong, map_firstOfEach, List.mem_eraseDups]
    exact List.mem_map_of_mem (List.mem_filter.mpr ⟨hmem, h⟩)
  obtain ⟨first, hfirst, hreach⟩ := List.mem_map.mp hplace
  exact ⟨first, hfirst, hreach ▸ find?_of_mem_firstOfEach tree.reach hfirst⟩

/-- Every one of the files can be read. -/
theorem exists_read_of_mem_filesAmong {paths : List Path} (h : p ∈ tree.filesAmong paths) :
    ∃ bytes, tree.read p = .ok bytes :=
  hasFile_iff.mp (List.mem_filter.mp ((firstOfEach_sublist _ _).subset h)).2

end FileTree

namespace World

open Registry

namespace ResourceLoader

/-- **The files that a loader goes on to read**: those below its roots that it has not seen before,
unless a name is too long. -/
theorem filesIn_eq (w : World) (name : String) (roots : List Path) (seen : List Location) :
    filesIn w name roots seen =
      match (roots.map (·.child name)).find? w.files.tooLong with
      | some p => .error ⟨.nameTooLong, p⟩
      | none => .ok ((w.files.filesAmong (roots.map (·.child name))).filter
          fun p => !seen.contains (w.files.reach p)) := by
  induction roots generalizing seen with
  | nil => rfl
  | cons root rest ih =>
    rw [filesIn, FileTree.isFile_eq, List.map_cons, List.find?_cons, FileTree.filesAmong,
      List.filter_cons]
    cases hlong : w.files.tooLong (root.child name) with
    | true => rfl
    | false =>
      simp only [Bool.false_eq_true, if_false]
      cases hfile : w.files.hasFile (root.child name) with
      | false => exact ih seen
      | true =>
        obtain ⟨bytes, hbytes⟩ := FileTree.hasFile_iff.mp hfile
        simp only [(FileTree.read_eq_ok.mp hbytes).1, if_true, firstOfEach, List.filter_cons,
          List.filter_filter]
        by_cases hseen : seen.contains (w.files.reach (root.child name)) = true
        · -- What stands at the same place as this file has been seen, too.
          have hothers (p : Path) : (!seen.contains (w.files.reach p) &&
              !(w.files.reach p == w.files.reach (root.child name))) =
                !seen.contains (w.files.reach p) := by
            by_cases hplace : w.files.reach p = w.files.reach (root.child name)
            · rw [hplace, hseen]
              rfl
            · rw [beq_false_of_ne hplace, Bool.not_false, Bool.and_true]
          rw [if_pos hseen, hseen, if_neg (by simp), ih]
          simp only [hothers]
          rfl
        · have hothers (p : Path) : (!(w.files.reach (root.child name) :: seen).contains
              (w.files.reach p)) = (!seen.contains (w.files.reach p) &&
                !(w.files.reach p == w.files.reach (root.child name))) := by
            rw [List.contains_cons, Bool.not_or, Bool.and_comm]
          rw [if_neg hseen, if_pos (by simpa using hseen), ih]
          simp only [hothers]
          cases (rest.map (·.child name)).find? w.files.tooLong <;> rfl

end ResourceLoader

/-! ## Findings -/

namespace ServiceLoader

/-- What a loader raises for a file that it cannot read. -/
def unreadable (contractName : String) (path : Path) (e : TextFileError) : Raised :=
  Raised.causedBy
    { kind := "ServiceConfigurationError"
      message := contractName ++ ": " ++ ("Error reading " ++ path.text) } (.ofTextFile e)

/-- What a loader raises for a line that names nothing that could be a provider. -/
def illegal (e : IllegalName) : Raised :=
  { kind := "ServiceConfigurationError", message := e.message }

/-- What a loader finds on a line with its number, if there is anything before the comment. -/
def findingOn? (path : Path) : List Char × Nat → Option (Except Raised String)
  | (line, lineNumber) =>
    if lineName line = [] then none
    else if NamesProvider (lineName line) then some (.ok (String.ofList (lineName line)))
    else some (.error (illegal ⟨path, lineNumber, String.ofList (lineName line)⟩))

/-- What a loader finds in a file, in the order of its lines. -/
def findingsIn (tree : FileTree) (contractName : String) (path : Path) :
    List (Except Raised String) :=
  match tree.read path with
  | .error e => [.error (unreadable contractName path (.file e))]
  | .ok bytes =>
    match Text.decode .utf8 bytes with
    | .error e => [.error (unreadable contractName path (.decode e))]
    | .ok text => ((Text.splitLines text).zipIdx 1).filterMap (findingOn? path)

/-- The names among findings, each once, or the first fault. -/
def outcomeOf (findings : List (Except Raised String)) : Except Raised (List String) :=
  (findings.mapM id).map List.eraseDups

/-- The names among findings after others. -/
def namesAfter (names : List String) (findings : List (Except Raised String)) :
    Except Raised (List String) :=
  (findings.mapM id).map fun more => (names ++ more).eraseDups

theorem namesAfter_nil (names : List String) : namesAfter names [] = .ok names.eraseDups := by
  change Except.ok (names ++ []).eraseDups = Except.ok names.eraseDups
  rw [List.append_nil]

/-- Findings come one after the other, up to the first fault. -/
theorem namesAfter_append (names : List String) (findings more : List (Except Raised String)) :
    namesAfter names (findings ++ more) =
      match findings.mapM id with
      | .error e => .error e
      | .ok found => namesAfter (names ++ found) more := by
  rw [namesAfter, List.mapM_append]
  cases findings.mapM id with
  | error e => rfl
  | ok found =>
    simp only [namesAfter]
    cases more.mapM id with
    | error e => rfl
    | ok others =>
      change Except.ok (names ++ (found ++ others)).eraseDups =
        Except.ok (names ++ found ++ others).eraseDups
      rw [List.append_assoc]

theorem namesAfter_cons_ok (names : List String) (name : String)
    (findings : List (Except Raised String)) :
    namesAfter names (.ok name :: findings) = namesAfter (names ++ [name]) findings :=
  namesAfter_append names [.ok name] findings

theorem namesAfter_cons_error (names : List String) (e : Raised)
    (findings : List (Except Raised String)) :
    namesAfter names (.error e :: findings) = .error e :=
  namesAfter_append names [.error e] findings

variable {loader : ServiceLoader} {w : World} {contractName : String}

/-- **What a loader finds on lines**, after the names found before. -/
theorem addNames_eq (path : Path) (lineNumber : Nat) (lines : List (List Char))
    (names : List String) :
    (addNames path lineNumber lines names.eraseDups).mapError illegal =
      namesAfter names ((lines.zipIdx lineNumber).filterMap (findingOn? path)) := by
  induction lines generalizing lineNumber names with
  | nil => rw [addNames, List.zipIdx_nil, List.filterMap_nil, namesAfter_nil]; rfl
  | cons line rest ih =>
    rw [addNames, List.zipIdx_cons, List.filterMap_cons, parseLine, findingOn?]
    by_cases hempty : lineName line = []
    · simp only [hempty, List.isEmpty_nil, if_true]
      exact ih (lineNumber + 1) names
    · have hempty' : (lineName line).isEmpty = false := List.isEmpty_eq_false_iff.mpr hempty
      simp only [hempty, hempty', Bool.false_eq_true, if_false, ← isProviderName_iff]
      by_cases hprovider : isProviderName (lineName line) = true
      · simp only [hprovider, if_true]
        have hadd : (if names.eraseDups.contains (String.ofList (lineName line)) = true
            then names.eraseDups else names.eraseDups ++ [String.ofList (lineName line)]) =
              (names ++ [String.ofList (lineName line)]).eraseDups := by
          rw [eraseDups_concat]
          simp only [List.contains_iff_mem, List.mem_eraseDups]
        rw [hadd, ih, namesAfter_cons_ok]
      · simp only [hprovider, Bool.false_eq_true, if_false]
        rw [namesAfter_cons_error]
        rfl

/-- **What a loader finds in a file**, after the names found before. -/
theorem run_namesIn (hcontract : (qualifiedNameOf loader.service).run w = (.ok contractName, w))
    (names : List String) (path : Path) :
    (loader.namesIn names.eraseDups path).run w =
      (namesAfter names (findingsIn w.files contractName path), w) := by
  have hfault (e : TextFileError) :
      (do throw ((← loader.fault ("Error reading " ++ path.text)).causedBy (.ofTextFile e)) :
        Run (List String)).run w = (.error (unreadable contractName path e), w) := by
    rw [Leaves.run_bind, fault, Leaves.run_bind, hcontract]
    rfl
  have hutf8 : Text.Encoding.ofName? "utf-8" = some .utf8 := by decide
  rw [namesIn, Run.world, Leaves.run_get_bind, FileTree.readText, FileTree.readTextWith, findingsIn]
  cases w.files.read path with
  | error e =>
    simp only
    rw [hfault, namesAfter_cons_error]
  | ok bytes =>
    simp only [hutf8]
    cases Text.decode .utf8 bytes with
    | error e =>
      simp only
      rw [hfault, namesAfter_cons_error]
    | ok text =>
      simp only
      rw [Text.splitLines_normalizeNewlines, ← addNames_eq]
      cases addNames path 1 (Text.splitLines text) names.eraseDups <;> rfl

/-- **What a loader finds in files**, one after the other. -/
theorem run_foldlM_namesIn
    (hcontract : (qualifiedNameOf loader.service).run w = (.ok contractName, w))
    (names : List String) (paths : List Path) :
    (paths.foldlM loader.namesIn names.eraseDups).run w =
      (namesAfter names (paths.flatMap (findingsIn w.files contractName)), w) := by
  induction paths generalizing names with
  | nil => rw [List.flatMap_nil, namesAfter_nil]; rfl
  | cons path rest ih =>
    rw [List.foldlM_cons, Leaves.run_bind, run_namesIn hcontract, List.flatMap_cons,
      namesAfter_append, namesAfter]
    cases (findingsIn w.files contractName path).mapM id with
    | error e => rfl
    | ok found => exact ih (names ++ found)

/-! ## Any number of roots -/

/-- The paths that a loader looks at, in the order of its roots. -/
def candidates (loader : ServiceLoader) (w : World) (contractName : String) : List Path :=
  (loader.resources.directories w).map fun root => loader.candidate root contractName

/-- The registry files that a loader finds, in the order of its roots. -/
def registryFiles (loader : ServiceLoader) (w : World) (contractName : String) : List Path :=
  w.files.filesAmong (loader.candidates w contractName)

/-- All that a loader finds in its registry files. -/
def findings (loader : ServiceLoader) (w : World) (contractName : String) :
    List (Except Raised String) :=
  (loader.registryFiles w contractName).flatMap (findingsIn w.files contractName)

/-- What the names of the providers come to. -/
theorem run_providerNames_eq
    (hcontract : ((qualifiedNameOf loader.service).run w).1 = .ok contractName) :
    loader.providerNames.run w =
      (match (loader.candidates w contractName).find? w.files.tooLong with
        | none => outcomeOf (loader.findings w contractName)
        | some p => .error (.ofFile ⟨.nameTooLong, p⟩), w) := by
  obtain ⟨result, hresult⟩ := steady_qualifiedNameOf w loader.service
  have hrun : (qualifiedNameOf loader.service).run w = (.ok contractName, w) := by
    have hw : (qualifiedNameOf loader.service).run w = (result, w) := hresult w.files
    rw [hw] at hcontract ⊢
    exact Prod.ext hcontract rfl
  -- Nothing has been seen at the start.
  have hunseen (files : List Path) :
      files.filter (fun p => !([] : List Location).contains (w.files.reach p)) = files :=
    List.filter_eq_self.mpr fun _ _ => rfl
  have hfiles : ResourceLoader.filesIn w (Naming.registryFile contractName loader.servicesDir)
      (loader.resources.directories w) [] =
        match (loader.candidates w contractName).find? w.files.tooLong with
        | some p => .error ⟨.nameTooLong, p⟩
        | none => .ok (loader.registryFiles w contractName) := by
    rw [ResourceLoader.filesIn_eq, hunseen]
    rfl
  rw [providerNames, Leaves.run_bind, hrun]
  simp only
  rw [Leaves.run_bind, ResourceLoader.resources, Run.world, Leaves.run_get_bind, hfiles]
  cases (loader.candidates w contractName).find? w.files.tooLong with
  | none => exact run_foldlM_namesIn hrun [] _
  | some p => rfl

/-- **What a loader finds below any roots.** If no path ends at a name that is too long, the names
found are the result, each once and in the order of the roots and then of the lines; or the first
fault found in this order is raised. The first path that is too long is the fault otherwise, and
it is raised as the system has it. Nothing in the world changes. The files read are all that the
paths lead to, each by the first path that leads to it, and none twice. -/
theorem providerNames_over_roots
    (hcontract : ((qualifiedNameOf loader.service).run w).1 = .ok contractName) :
    loader.providerNames.run w =
      (match (loader.candidates w contractName).find? w.files.tooLong with
        | none => outcomeOf (loader.findings w contractName)
        | some p => .error (.ofFile ⟨.nameTooLong, p⟩), w) ∧
    (∀ p ∈ loader.candidates w contractName, w.files.hasFile p = true →
      ∃ first ∈ loader.registryFiles w contractName,
        ((loader.candidates w contractName).filter w.files.hasFile).find?
          (fun q => w.files.reach q == w.files.reach p) = some first) ∧
    (∀ p ∈ loader.registryFiles w contractName, ∃ bytes, w.files.read p = .ok bytes) ∧
    (loader.registryFiles w contractName).Sublist (loader.candidates w contractName) ∧
    ((loader.registryFiles w contractName).map w.files.reach).Nodup :=
  ⟨run_providerNames_eq hcontract, fun _ => FileTree.exists_mem_filesAmong,
    fun _ => FileTree.exists_read_of_mem_filesAmong,
    (firstOfEach_sublist _ _).trans List.filter_sublist, FileTree.nodup_reach_filesAmong _ _⟩

/-! ### A file below two roots -/

/-- Registry files of one contract below two directories. -/
def twoFiles : Table Location Node :=
  [(["a"], .directory), (["a", "META-INF"], .directory),
    (["a", "META-INF", "services"], .directory),
    (["a", "META-INF", "services", "m.C"],
      .file (Text.utf8Bytes "x.Y # c\r\n\n z\u2028x.Y".toList)),
    (["b"], .directory), (["b", "META-INF"], .directory),
    (["b", "META-INF", "services"], .directory),
    (["b", "META-INF", "services", "m.C"], .file (Text.utf8Bytes "n:I\nz".toList))]

/-- A world with the files and one class, which is a contract. -/
def twoFilesWorld : World := { contractWorld "C" with files := ⟨[], twoFiles⟩ }

/-- A loader of that contract. -/
def rootsLoader (roots : List Path) : ServiceLoader :=
  { service := .type 0, resources := { roots := some roots } }

theorem qualifiedNameOf_rootsLoader (roots : List Path) :
    ((qualifiedNameOf (rootsLoader roots).service).run twoFilesWorld).1 = .ok "m.C" := by
  change ((qualifiedNameOf (.type 0)).run twoFilesWorld).1 = .ok "m.C"
  decide +kernel

/-- The first directory is a root under two spellings. -/
theorem providerNames_over_roots_spelled :
    ((rootsLoader [⟨.none, ["a"]⟩, ⟨.none, ["b", "..", "a"]⟩, ⟨.none, ["b"]⟩]).providerNames.run
        twoFilesWorld).1 = .ok ["x.Y", "z", "n:I"] := by
  rw [(providerNames_over_roots (qualifiedNameOf_rootsLoader _)).1]
  decide +kernel

/-! ### A root that is too long -/

theorem candidates_rootsLoader (root : Path) (roots : List Path) (w : World)
    (contractName : String) : (rootsLoader (root :: roots)).candidates w contractName =
      (rootsLoader roots).candidate root contractName ::
        (rootsLoader roots).candidates w contractName := rfl

/-- Below a directory with a long name nothing can be looked for. -/
theorem tooLong_longName (roots : List Path) : twoFilesWorld.files.tooLong
    ((rootsLoader roots).candidate ⟨.none, [String.ofList longName]⟩ "m.C") = true := by
  have hresource : Path.ofString (Naming.registryFile "m.C" Naming.servicesDir) =
      ⟨.none, ["META-INF", "services", "m.C"]⟩ := by decide +kernel
  have hcandidate : (rootsLoader roots).candidate ⟨.none, [String.ofList longName]⟩ "m.C" =
      ⟨.none, [String.ofList longName, "META-INF", "services", "m.C"]⟩ := by
    change Path.append _ (Path.ofString (Naming.registryFile "m.C" Naming.servicesDir)) = _
    rw [hresource]
    rfl
  have hnull : Path.hasNull ⟨.none, [String.ofList longName, "META-INF", "services", "m.C"]⟩ =
      false := by
    have hname : (String.ofList longName).toList.contains (Char.ofNat 0) = false := by
      rw [String.toList_ofList]
      decide
    rw [Path.hasNull, List.any_cons, hname]
    decide
  have hlength : FileTree.nameLimit < (String.ofList longName).utf8ByteSize := by decide +kernel
  rw [hcandidate, FileTree.tooLong, FileTree.locate, hnull, if_neg Bool.false_ne_true,
    FileTree.follow, if_pos hlength]

/-- Behind such a root there is one registry file with no fault in it, but what is raised is an
error of the system. -/
theorem providerNames_below_longName :
    outcomeOf ((rootsLoader [⟨.none, [String.ofList longName]⟩, ⟨.none, ["a"]⟩]).findings
        twoFilesWorld "m.C") = .ok ["x.Y", "z"] ∧
      ((rootsLoader [⟨.none, [String.ofList longName]⟩, ⟨.none, ["a"]⟩]).providerNames.run
        twoFilesWorld).1.mapError (·.kind) = .error "OSError" := by
  have hlong := tooLong_longName [⟨.none, ["a"]⟩]
  constructor
  · have hmissing : ¬ twoFilesWorld.files.hasFile ((rootsLoader [⟨.none, ["a"]⟩]).candidate
        ⟨.none, [String.ofList longName]⟩ "m.C") = true := by
      rw [FileTree.hasFile, FileTree.isFile_eq, hlong]
      exact Bool.false_ne_true
    rw [findings, registryFiles, candidates_rootsLoader, FileTree.filesAmong,
      List.filter_cons_of_neg hmissing]
    decide +kernel
  · rw [run_providerNames_eq (qualifiedNameOf_rootsLoader _), candidates_rootsLoader,
      List.find?_cons_of_pos hlong]
    rfl

end ServiceLoader

end World

end ProviderRegistry
