import ProviderRegistry.Proofs.Outputs
import ProviderRegistry.Registry.Aggregate

/-!
# Writing registry files

Every entry that is not empty has its turn (`turns`). A file that the system refuses is
reported and changes no file; a file that is opened holds the names of its entry
afterwards, provided that the encoding has bytes for them. It is emptied all the same when
the encoding has none, and then the writing ends (`writeEntries_isolated`).
-/

namespace ProviderRegistry.Registry

/-- The turn of an entry: the tree that its file is written into. -/
structure Turn where
  entry : Entry
  tree : FileTree

/-- The bytes that the file of an entry is to hold; none if there is no such encoding or
it lacks a character. -/
def Output.bytes? (output : Output) (entry : Entry) : Option (List UInt8) :=
  match Text.Encoding.ofName? output.encoding with
  | none => none
  | some encoding => (Text.encode encoding entry.render).toOption

namespace Turn

variable (output : Output)

/-- The path of the registry file. -/
def path (t : Turn) : Path := output.registryPath t.entry.contractName

/-- The location of the registry file. -/
def location (t : Turn) : Location := t.tree.reach (t.path output)

/-- What the turn leaves, and how it ends. -/
def written (t : Turn) : FileTree × Except TextFileError Unit :=
  output.writeResource t.tree (output.registryFile t.entry.contractName) t.entry.render

/-- Why the registry file cannot be opened, if it cannot. -/
def refusal? (t : Turn) : Option FileError :=
  match (t.tree.openForWriting (t.path output)).2 with
  | .error e => some e
  | .ok () => none

/-- Whether the turn ends well: the system refuses the file, or it is opened and the
encoding has bytes for the names. -/
def completes (t : Turn) : Bool :=
  match t.refusal? output with
  | some e => e.isSystem
  | none => (output.bytes? t.entry).isSome

/-- The report of a file that cannot be opened. -/
def report? (t : Turn) : Option Diagnostic :=
  (t.refusal? output).map fun e =>
    { message := "Could not write " ++ (t.path output).text ++ ": " ++ e.message }

end Turn

/-- The turns of the entries that are not empty, in order. -/
def turns (output : Output) : List Entry → FileTree → List Turn
  | [], _ => []
  | entry :: rest, tree =>
    if entry.implementations.isEmpty then turns output rest tree
    else
      let turn : Turn := ⟨entry, tree⟩
      turn :: turns output rest (turn.written output).1

/-- The turns whose files are opened. -/
def openedTurns (output : Output) (entries : List Entry) (tree : FileTree) : List Turn :=
  (turns output entries tree).filter fun t => (t.refusal? output).isNone

/-- The last of some turns that writes at a location. -/
def lastAt (output : Output) (l : Location) (opened : List Turn) : Option Turn :=
  opened.reverse.find? (·.location output == l)

/-! ## One turn -/

namespace Turn

variable {output : Output} {t : Turn}

/-- The three ways in which a turn can end. -/
theorem written_cases (output : Output) (t : Turn) :
    (∃ after e, t.refusal? output = some e ∧ t.written output = (after, .error (.file e)) ∧
      t.tree.Extends after) ∨
    (∃ after bytes, t.refusal? output = none ∧ output.bytes? t.entry = some bytes ∧
      t.written output = (after, .ok ()) ∧ t.tree.Wrote (t.path output) bytes after) ∨
    (∃ after e, t.refusal? output = none ∧ output.bytes? t.entry = none ∧
      t.written output = (after, .error e) ∧ e.isSystem = false ∧
      t.tree.Wrote (t.path output) [] after) := by
  rcases Output.openAndWrite_cases t.tree (t.path output) output.encoding t.entry.render with
    ⟨after, e, hopen, hwrite, hext⟩ | ⟨after, hopen, hwrote, h⟩ |
    ⟨opened, after, known, bytes, hopen, hname, hencode, hwrite, hwrote⟩
  · refine .inl ⟨after, e, ?_, ?_, hext⟩
    · rw [refusal?, hopen]
    · rw [written, Output.writeResource, ← Output.registryPath, ← path, hwrite]
  · have hrefusal : t.refusal? output = none := by rw [refusal?, hopen]
    rcases h with ⟨hname, hwrite⟩ | ⟨known, e, hname, hencode, hwrite⟩
    · refine .inr (.inr ⟨after, .unknownEncoding output.encoding, hrefusal, ?_, ?_, rfl, hwrote⟩)
      · rw [Output.bytes?, hname]
      · rw [written, Output.writeResource, ← Output.registryPath, ← path, hwrite]
    · refine .inr (.inr ⟨after, .encode e, hrefusal, ?_, ?_, rfl, hwrote⟩)
      · simp only [Output.bytes?, hname, hencode]
        rfl
      · rw [written, Output.writeResource, ← Output.registryPath, ← path, hwrite]
  · refine .inr (.inl ⟨after, bytes, ?_, ?_, ?_, hwrote⟩)
    · rw [refusal?, hopen]
    · simp only [Output.bytes?, hname, hencode]
      rfl
    · rw [written, Output.writeResource, ← Output.registryPath, ← path, hwrite]

theorem keeps_written (output : Output) (t : Turn) : t.tree.Keeps (t.written output).1 := by
  rcases t.written_cases output with ⟨after, e, -, hwritten, hext⟩ |
    ⟨after, bytes, -, -, hwritten, hwrote⟩ | ⟨after, e, -, -, hwritten, -, hwrote⟩
  · rw [hwritten]
    exact hext.toKeeps
  · rw [hwritten]
    exact hwrote.toKeeps
  · rw [hwritten]
    exact hwrote.toKeeps

end Turn

/-! ## All turns -/

section

variable {output : Output} {tree after : FileTree} {entries : List Entry}
  {reports reports' : Reports} {paths : List Path}

theorem lastAt_cons (t : Turn) (opened : List Turn) (l : Location) :
    lastAt output l (t :: opened) =
      (lastAt output l opened).or (if t.location output = l then some t else none) := by
  rw [lastAt, lastAt, List.reverse_cons, List.find?_append]
  by_cases h : t.location output = l <;> simp [h]

theorem turns_cons_of_isEmpty {entry : Entry} (h : entry.implementations.isEmpty = true)
    (rest : List Entry) (tree : FileTree) :
    turns output (entry :: rest) tree = turns output rest tree := by
  rw [turns, if_pos h]

theorem turns_cons {entry : Entry} (h : ¬ entry.implementations.isEmpty = true)
    (rest : List Entry) (tree : FileTree) :
    turns output (entry :: rest) tree =
      ⟨entry, tree⟩ :: turns output rest ((⟨entry, tree⟩ : Turn).written output).1 := by
  rw [turns, if_neg h]

theorem openedTurns_cons_of_isEmpty {entry : Entry} (h : entry.implementations.isEmpty = true)
    (rest : List Entry) (tree : FileTree) :
    openedTurns output (entry :: rest) tree = openedTurns output rest tree := by
  rw [openedTurns, turns_cons_of_isEmpty h, openedTurns]

theorem openedTurns_cons_refused {entry : Entry} (h : ¬ entry.implementations.isEmpty = true)
    {e : FileError} (he : (⟨entry, tree⟩ : Turn).refusal? output = some e) (rest : List Entry) :
    openedTurns output (entry :: rest) tree =
      openedTurns output rest ((⟨entry, tree⟩ : Turn).written output).1 := by
  rw [openedTurns, turns_cons h, List.filter_cons_of_neg (by simp [he]), openedTurns]

theorem openedTurns_cons_opened {entry : Entry} (h : ¬ entry.implementations.isEmpty = true)
    (he : (⟨entry, tree⟩ : Turn).refusal? output = none) (rest : List Entry) :
    openedTurns output (entry :: rest) tree =
      ⟨entry, tree⟩ :: openedTurns output rest ((⟨entry, tree⟩ : Turn).written output).1 := by
  rw [openedTurns, turns_cons h, List.filter_cons_of_pos (by simp [he]), openedTurns]

theorem writeEntries_cons_of_isEmpty {entry : Entry} (h : entry.implementations.isEmpty = true)
    (rest : List Entry) (tree : FileTree) (reports : Reports) :
    writeEntries output (entry :: rest) tree reports = writeEntries output rest tree reports := by
  rw [writeEntries, if_pos h]

section

variable {entry : Entry} {e : TextFileError}

theorem writeEntries_cons_ok (h : ¬ entry.implementations.isEmpty = true)
    (hw : (⟨entry, tree⟩ : Turn).written output = (after, .ok ())) (rest : List Entry)
    (reports : Reports) :
    writeEntries output (entry :: rest) tree reports =
      ((writeEntries output rest after reports).1, (writeEntries output rest after reports).2.1,
        (writeEntries output rest after reports).2.2.map
          ((⟨entry, tree⟩ : Turn).path output :: ·)) := by
  rw [Turn.written] at hw
  rw [writeEntries, if_neg h]
  simp only [hw]
  rfl

theorem writeEntries_cons_system (h : ¬ entry.implementations.isEmpty = true)
    (hw : (⟨entry, tree⟩ : Turn).written output = (after, .error e)) (he : e.isSystem = true)
    (rest : List Entry) (reports : Reports) :
    writeEntries output (entry :: rest) tree reports =
      writeEntries output rest after (reports.error ("Could not write " ++
        ((⟨entry, tree⟩ : Turn).path output).text ++ ": " ++ e.message)) := by
  rw [Turn.written] at hw
  rw [writeEntries, if_neg h]
  simp only [hw, if_pos he]
  rfl

theorem writeEntries_cons_raise (h : ¬ entry.implementations.isEmpty = true)
    (hw : (⟨entry, tree⟩ : Turn).written output = (after, .error e)) (he : e.isSystem = false)
    (rest : List Entry) (reports : Reports) :
    writeEntries output (entry :: rest) tree reports = (after, reports, .error e) := by
  rw [Turn.written] at hw
  rw [writeEntries, if_neg h]
  simp only [hw, he, Bool.false_eq_true, if_false]

end

/-- What a later turn writes at a place counts, then what this one has written, and then what
stood there before. -/
theorem file?_of_wrote {t : Turn} {later : List Turn} {bytes : List UInt8} {next : FileTree}
    (hbytes : output.bytes? t.entry = some bytes) (hwrote : t.tree.Wrote (t.path output) bytes next)
    (l : Location)
    (hlater : after.file? l =
      match lastAt output l later with
      | some t => output.bytes? t.entry
      | none => next.file? l) :
    after.file? l =
      match lastAt output l (t :: later) with
      | some t => output.bytes? t.entry
      | none => t.tree.file? l := by
  rw [hlater, lastAt_cons]
  cases lastAt output l later with
  | some t => rfl
  | none =>
    by_cases hl : t.location output = l
    · rw [if_pos hl, ← hl]
      exact hwrote.self.trans hbytes.symm
    · rw [if_neg hl]
      exact hwrote.other l (Ne.symm hl)

/-- **All entries have their turns when each ends well**: the written paths, the reports
and the content of every file afterwards. -/
theorem writeEntries_of_completes (entries : List Entry) (tree : FileTree) (reports : Reports)
    (h : ∀ t ∈ turns output entries tree, t.completes output = true) :
    ∃ after, writeEntries output entries tree reports =
        (after, ⟨reports.diagnostics ++ (turns output entries tree).filterMap (·.report? output)⟩,
          .ok ((openedTurns output entries tree).map (·.path output))) ∧
      tree.Keeps after ∧
      ∀ l, after.file? l =
        match lastAt output l (openedTurns output entries tree) with
        | some t => output.bytes? t.entry
        | none => tree.file? l := by
  induction entries generalizing tree reports with
  | nil =>
    refine ⟨tree, ?_, .refl tree, fun l => ?_⟩
    · simp only [writeEntries, openedTurns, turns, List.filterMap_nil, List.append_nil,
        List.filter_nil, List.map_nil]
    · simp only [openedTurns, turns, List.filter_nil, lastAt, List.reverse_nil, List.find?_nil]
  | cons entry rest ih =>
    by_cases hempty : entry.implementations.isEmpty = true
    · rw [turns_cons_of_isEmpty hempty] at h ⊢
      rw [openedTurns_cons_of_isEmpty hempty, writeEntries_cons_of_isEmpty hempty]
      exact ih tree reports h
    · rw [turns_cons hempty] at h ⊢
      obtain ⟨ht, hrest⟩ := List.forall_mem_cons.mp h
      rcases Turn.written_cases output ⟨entry, tree⟩ with ⟨next, e, hrefusal, hwritten, hext⟩ |
        ⟨next, bytes, hrefusal, hbytes, hwritten, hwrote⟩ |
        ⟨next, e, hrefusal, hbytes, -, -, -⟩
      · -- The file is refused: it is reported, and no file has changed.
        rw [Turn.completes, hrefusal] at ht
        rw [openedTurns_cons_refused hempty hrefusal, writeEntries_cons_system hempty hwritten ht,
          hwritten]
        rw [hwritten] at hrest
        obtain ⟨after, hrun, hkeeps, hfile⟩ := ih next _ hrest
        refine ⟨after, ?_, hext.toKeeps.trans hkeeps, fun l => ?_⟩
        · rw [hrun]
          simp [Turn.report?, hrefusal, Reports.error, Reports.report]
          rfl
        · rw [hfile, hext.file]
      · rw [openedTurns_cons_opened hempty hrefusal, writeEntries_cons_ok hempty hwritten, hwritten]
        rw [hwritten] at hrest
        obtain ⟨after, hrun, hkeeps, hfile⟩ := ih next reports hrest
        refine ⟨after, ?_, hwrote.toKeeps.trans hkeeps,
          fun l => file?_of_wrote hbytes hwrote l (hfile l)⟩
        rw [hrun]
        simp [Turn.report?, hrefusal, Except.map]
      · rw [Turn.completes, hrefusal, hbytes] at ht
        cases ht

/-- Writing that ends well begins with a turn that the system refuses, or with one that
is written. -/
theorem of_writeEntries_cons_eq_ok {entry : Entry} {rest : List Entry}
    (hempty : ¬ entry.implementations.isEmpty = true)
    (h : writeEntries output (entry :: rest) tree reports = (after, reports', .ok paths)) :
    (∃ next e message, (⟨entry, tree⟩ : Turn).refusal? output = some e ∧ e.isSystem = true ∧
      (⟨entry, tree⟩ : Turn).written output = (next, .error (.file e)) ∧
      writeEntries output rest next (reports.error message) = (after, reports', .ok paths)) ∨
    (∃ next bytes more, (⟨entry, tree⟩ : Turn).refusal? output = none ∧
      output.bytes? entry = some bytes ∧
      (⟨entry, tree⟩ : Turn).written output = (next, .ok ()) ∧
      tree.Wrote ((⟨entry, tree⟩ : Turn).path output) bytes next ∧
      writeEntries output rest next reports = (after, reports', .ok more)) := by
  rcases Turn.written_cases output ⟨entry, tree⟩ with ⟨next, e, hrefusal, hwritten, -⟩ |
    ⟨next, bytes, hrefusal, hbytes, hwritten, hwrote⟩ | ⟨next, e, -, -, hwritten, hraise, -⟩
  · by_cases he : e.isSystem = true
    · rw [writeEntries_cons_system hempty hwritten he] at h
      exact .inl ⟨next, e, _, hrefusal, he, hwritten, h⟩
    -- A path that no system accepts is no refusal: the writing ends.
    · have hraise : (TextFileError.file e).isSystem = false := Bool.not_eq_true _ ▸ he
      rw [writeEntries_cons_raise hempty hwritten hraise] at h
      cases (Prod.mk.inj (Prod.mk.inj h).2).2
  · rw [writeEntries_cons_ok hempty hwritten] at h
    obtain ⟨h1, h2⟩ := Prod.mk.inj h
    obtain ⟨h2, h3⟩ := Prod.mk.inj h2
    cases hrest : (writeEntries output rest next reports).2.2 with
    | error e =>
      rw [hrest] at h3
      cases h3
    | ok more =>
      refine .inr ⟨next, bytes, more, hrefusal, hbytes, hwritten, hwrote, ?_⟩
      exact Prod.ext h1 (Prod.ext h2 hrest)
  · rw [writeEntries_cons_raise hempty hwritten hraise] at h
    cases (Prod.mk.inj (Prod.mk.inj h).2).2

/-- Writing that ends well has had a good turn for every entry. -/
theorem completes_of_writeEntries
    (h : writeEntries output entries tree reports = (after, reports', .ok paths)) :
    ∀ t ∈ turns output entries tree, t.completes output = true := by
  induction entries generalizing tree reports paths with
  | nil =>
    rw [turns]
    exact List.forall_mem_nil _
  | cons entry rest ih =>
    by_cases hempty : entry.implementations.isEmpty = true
    · rw [turns_cons_of_isEmpty hempty]
      rw [writeEntries_cons_of_isEmpty hempty] at h
      exact ih h
    · rw [turns_cons hempty, List.forall_mem_cons, Turn.completes]
      rcases of_writeEntries_cons_eq_ok hempty h with
        ⟨next, e, message, hrefusal, he, hwritten, hrest⟩ |
        ⟨next, bytes, more, hrefusal, hbytes, hwritten, -, hrest⟩
      · rw [hwritten, hrefusal]
        exact ⟨he, ih hrest⟩
      · rw [hwritten, hrefusal, hbytes]
        exact ⟨rfl, ih hrest⟩

/-- Each entry that is not empty has one turn, in order. -/
theorem turns_map_entry (output : Output) (entries : List Entry) (tree : FileTree) :
    (turns output entries tree).map (·.entry) =
      entries.filter fun entry => !entry.implementations.isEmpty := by
  induction entries generalizing tree with
  | nil => rfl
  | cons entry rest ih =>
    by_cases hempty : entry.implementations.isEmpty = true
    · rw [turns_cons_of_isEmpty hempty, ih, List.filter_cons_of_neg (by simp [hempty])]
    · rw [turns_cons hempty, List.map_cons, ih, List.filter_cons_of_pos (by simpa using hempty)]

/-- What every turn preserves still holds when a later one has its turn. -/
theorem turns_induction {P : FileTree → Prop} {t : Turn}
    (hwritten : ∀ t : Turn, P t.tree → P (t.written output).1) (htree : P tree)
    (h : t ∈ turns output entries tree) : P t.tree := by
  induction entries generalizing tree with
  | nil => cases h
  | cons entry rest ih =>
    by_cases hempty : entry.implementations.isEmpty = true
    · rw [turns_cons_of_isEmpty hempty] at h
      exact ih htree h
    · rw [turns_cons hempty] at h
      rcases List.mem_cons.mp h with rfl | h
      · exact htree
      · exact ih (hwritten ⟨entry, tree⟩ htree) h

/-- A turn writes into a tree that the turns before it have only added to. -/
theorem keeps_of_mem_turns {t : Turn} (h : t ∈ turns output entries tree) : tree.Keeps t.tree :=
  turns_induction (fun t ht => ht.trans (t.keeps_written output)) (.refl tree) h

/-- The path of a file that was opened leads to it in the end. -/
theorem locate_of_mem_openedTurns {t : Turn}
    (h : writeEntries output entries tree reports = (after, reports', .ok paths))
    (ht : t ∈ openedTurns output entries tree) :
    after.locate (t.path output) = .ok (t.location output) := by
  induction entries generalizing tree reports paths with
  | nil => cases ht
  | cons entry rest ih =>
    by_cases hempty : entry.implementations.isEmpty = true
    · rw [openedTurns_cons_of_isEmpty hempty] at ht
      rw [writeEntries_cons_of_isEmpty hempty] at h
      exact ih h ht
    · rcases of_writeEntries_cons_eq_ok hempty h with
        ⟨next, e, message, hrefusal, -, hwritten, hrest⟩ |
        ⟨next, bytes, more, hrefusal, -, hwritten, hwrote, hrest⟩
      · rw [openedTurns_cons_refused hempty hrefusal, hwritten] at ht
        exact ih hrest ht
      · rw [openedTurns_cons_opened hempty hrefusal, hwritten] at ht
        rcases List.mem_cons.mp ht with rfl | ht
        · obtain ⟨last, hlast, hkeeps, -⟩ :=
            writeEntries_of_completes rest next reports (completes_of_writeEntries hrest)
          rw [hrest] at hlast
          obtain rfl := (Prod.mk.inj hlast).1
          exact hkeeps.locate hwrote.locate
        · exact ih hrest ht

/-- No entry is reported just when the file of every entry is opened. -/
theorem unwritten_eq_nil_iff (hne : ∀ entry ∈ entries, entry.implementations ≠ []) :
    (turns output entries tree).filterMap (·.report? output) = [] ↔
      (openedTurns output entries tree).map (·.path output) =
        entries.map fun entry => output.registryPath entry.contractName := by
  have hentries : (turns output entries tree).map (·.entry) = entries := by
    rw [turns_map_entry, List.filter_eq_self]
    intro entry hentry
    simpa using hne entry hentry
  -- No entry is empty, so that there is one turn for each.
  have hpaths : entries.map (fun entry => output.registryPath entry.contractName) =
      (turns output entries tree).map (·.path output) := by
    conv_lhs => rw [← hentries]
    rw [List.map_map]
    rfl
  have hreports : (turns output entries tree).filterMap (·.report? output) = [] ↔
      ∀ t ∈ turns output entries tree, (t.refusal? output).isNone = true := by
    simp only [List.filterMap_eq_nil_iff, Turn.report?, Option.map_eq_none_iff,
      Option.isNone_iff_eq_none]
  rw [hreports, hpaths, openedTurns]
  constructor
  · intro h
    rw [List.filter_eq_self.mpr h]
  · intro h
    have hlength := congrArg List.length h
    rw [List.length_map, List.length_map] at hlength
    exact List.length_filter_eq_length_iff.mp hlength

/-- What writing leaves when it ends well. -/
theorem of_writeEntries_eq_ok
    (h : writeEntries output entries tree reports = (after, reports', .ok paths)) :
    tree.Keeps after ∧
      reports'.diagnostics =
        reports.diagnostics ++ (turns output entries tree).filterMap (·.report? output) ∧
      paths = (openedTurns output entries tree).map (·.path output) ∧
      ∀ l, after.file? l =
        match lastAt output l (openedTurns output entries tree) with
        | some t => output.bytes? t.entry
        | none => tree.file? l := by
  obtain ⟨last, hrun, hkeeps, hfile⟩ :=
    writeEntries_of_completes entries tree reports (completes_of_writeEntries h)
  rw [h] at hrun
  simp only [Prod.mk.injEq, Except.ok.injEq] at hrun
  obtain ⟨rfl, rfl, rfl⟩ := hrun
  exact ⟨hkeeps, rfl, rfl, hfile⟩

end

/-- An output that writes below one directory, in ASCII. -/
def blockedOutput : Output where
  classOutput := ⟨.none, ["o"]⟩
  sourceOutput := ⟨.none, ["o"]⟩
  servicesDir := "s"
  encoding := "ascii"

/-- A tree with a directory in the place of one registry file. -/
def blockedTree : FileTree where
  home := []
  nodes := [(["o"], .directory), (["o", "s"], .directory), (["o", "s", "a"], .directory),
    (["o", "s", "b"], .file [120, 10])]

def blockedEntries : List Entry := [⟨"a", ["x"]⟩, ⟨"c", []⟩, ⟨"b", ["y", "z"]⟩]

end ProviderRegistry.Registry
