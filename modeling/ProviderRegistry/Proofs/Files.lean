import Mathlib.Data.List.Basic
import ProviderRegistry.FileTree

/-!
# What operations do to a file tree

Directories are made and never unmade, and a file changes only when something is written
at its location. A path that leads somewhere leads to the location that it spells, and
goes on leading there as the tree grows.
-/

namespace ProviderRegistry

/-! ## Tables -/

namespace Table

variable {κ α : Type} [BEq κ] [LawfulBEq κ]

theorem mem_of_lookup {table : Table κ α} {key : κ} {value : α}
    (h : table.lookup key = some value) : (key, value) ∈ table := by
  induction table with
  | nil => cases h
  | cons entry rest ih =>
    rw [List.lookup_cons] at h
    split at h
    next hkey =>
      obtain rfl := Option.some.inj h
      rw [eq_of_beq hkey]
      exact List.mem_cons_self
    next => exact List.mem_cons_of_mem _ (ih h)

theorem has_iff {table : Table κ α} {key : κ} : table.has key = true ↔ key ∈ table.map (·.1) := by
  rw [has]
  induction table with
  | nil => simp
  | cons entry rest ih =>
    rw [List.lookup_cons, List.map_cons, List.mem_cons, ← ih]
    by_cases hkey : key = entry.1
    · simp [hkey]
    · simp [hkey, beq_false_of_ne hkey]

theorem lookup_set_self (key : κ) (value : α) (table : Table κ α) :
    (set key value table).lookup key = some value := by
  induction table with
  | nil => simp [set]
  | cons entry rest ih =>
    rw [set]
    split
    next => simp
    next he =>
      have hne : key ≠ entry.1 := by
        rintro rfl
        exact he (beq_self_eq_true _)
      rw [List.lookup_cons, beq_false_of_ne hne]
      exact ih

theorem lookup_set_of_ne {key other : κ} (h : other ≠ key) (value : α) (table : Table κ α) :
    (set key value table).lookup other = table.lookup other := by
  induction table with
  | nil => simp [set, List.lookup_cons, beq_false_of_ne h]
  | cons entry rest ih =>
    rw [set]
    split
    next he =>
      rw [List.lookup_cons, List.lookup_cons, eq_of_beq he, beq_false_of_ne h]
    next => rw [List.lookup_cons, List.lookup_cons, ih]

end Table

/-- The content of a file. -/
def Node.content? : Node → Option (List UInt8)
  | .file content => some content
  | .directory => none

namespace FileTree

/-- The content of the file at a location. -/
def file? (tree : FileTree) (l : Location) : Option (List UInt8) :=
  (tree.node? l).bind Node.content?

/-- The directories of `before` are directories still. -/
structure Keeps (before after : FileTree) : Prop where
  home : after.home = before.home
  directory : ∀ l, before.node? l = some .directory → after.node? l = some .directory

/-- Nothing but directories has been added. -/
structure Extends (before after : FileTree) : Prop extends Keeps before after where
  file : ∀ l, after.file? l = before.file? l

section

variable {before middle after tree : FileTree} {l l' here : Location} {p q : Path} {node : Node}
  {part : String} {parts rest more : List String}

theorem Keeps.refl (tree : FileTree) : Keeps tree tree := ⟨rfl, fun _ h => h⟩

theorem Keeps.trans (h : Keeps before middle) (h' : Keeps middle after) : Keeps before after :=
  ⟨h'.home.trans h.home, fun l hl => h'.directory l (h.directory l hl)⟩

theorem Extends.refl (tree : FileTree) : Extends tree tree := ⟨.refl tree, fun _ => rfl⟩

theorem Extends.trans (h : Extends before middle) (h' : Extends middle after) :
    Extends before after :=
  ⟨h.toKeeps.trans h'.toKeeps, fun l => (h'.file l).trans (h.file l)⟩

/-! ## Where paths lead -/

theorem Keeps.start (h : Keeps before after) (p : Path) : after.start p = before.start p := by
  rw [FileTree.start, FileTree.start, h.home]

theorem Keeps.reach (h : Keeps before after) (p : Path) : after.reach p = before.reach p := by
  rw [FileTree.reach, FileTree.reach, h.start]

/-- A component is followed if its name fits, and leads to a directory where others stand behind
it. -/
theorem follow_cons (hfits : part.utf8ByteSize ≤ nameLimit)
    (hdirectory : rest ≠ [] → tree.node? (enter here part) = some .directory) :
    tree.follow here (part :: rest) = tree.follow (enter here part) rest := by
  rw [follow, if_neg (Nat.not_lt.mpr hfits)]
  cases rest with
  | nil => rfl
  | cons next more => simp only [hdirectory (List.cons_ne_nil _ _)]

theorem follow_cons_eq_ok_iff :
    tree.follow here (part :: rest) = .ok l ↔
      part.utf8ByteSize ≤ nameLimit ∧
        (rest ≠ [] → tree.node? (enter here part) = some .directory) ∧
        tree.follow (enter here part) rest = .ok l := by
  refine ⟨fun h => ?_, fun ⟨hfits, hdirectory, hrest⟩ => (follow_cons hfits hdirectory).trans hrest⟩
  rw [follow] at h
  split at h
  next => cases h
  next hfits =>
    refine ⟨Nat.le_of_not_lt hfits, ?_⟩
    cases rest with
    | nil => exact ⟨fun hne => absurd rfl hne, h⟩
    | cons next more =>
      simp only at h
      split at h
      next hdirectory => exact ⟨fun _ => hdirectory, h⟩
      next => cases h
      next => cases h

/-- A component leads nowhere if its name is too long, if others stand behind it and it leads to
nothing or to a file, or if they lead nowhere. -/
theorem of_follow_cons_eq_error {e : FileError.Cause}
    (h : tree.follow here (part :: rest) = .error e) :
    (nameLimit < part.utf8ByteSize ∧ e = .nameTooLong) ∨
      (tree.node? (enter here part) = none ∧ e = .notFound) ∨
      (rest ≠ [] ∧ (∃ content, tree.node? (enter here part) = some (.file content)) ∧
        e = .notDirectory) ∨
      tree.follow (enter here part) rest = .error e := by
  rw [follow] at h
  split at h
  next hlong => exact .inl ⟨hlong, (Except.error.inj h).symm⟩
  next =>
    refine .inr ?_
    cases rest with
    | nil => cases h
    | cons next more =>
      simp only at h
      split at h
      next => exact .inr (.inr h)
      next content hfile =>
        exact .inr (.inl ⟨List.cons_ne_nil _ _, ⟨content, hfile⟩, (Except.error.inj h).symm⟩)
      next hnone => exact .inl ⟨hnone, (Except.error.inj h).symm⟩

theorem follow_eq_foldl (h : tree.follow here parts = .ok l) : l = parts.foldl enter here := by
  induction parts generalizing here with
  | nil => exact (Except.ok.inj h).symm
  | cons part rest ih => exact ih (follow_cons_eq_ok_iff.mp h).2.2

/-- Where directories stay such, components lead where they led. -/
theorem follow_mono
    (hdirectory : ∀ l, before.node? l = some .directory → after.node? l = some .directory)
    (h : before.follow here parts = .ok l) : after.follow here parts = .ok l := by
  induction parts generalizing here with
  | nil => exact h
  | cons part rest ih =>
    obtain ⟨hfits, hthere, hrest⟩ := follow_cons_eq_ok_iff.mp h
    exact follow_cons_eq_ok_iff.mpr ⟨hfits, fun hne => hdirectory _ (hthere hne), ih hrest⟩

/-- Components that go on from a directory lead on from where the directory is. -/
theorem follow_append (h : tree.follow here parts = .ok l)
    (hdirectory : tree.node? l = some .directory) :
    tree.follow here (parts ++ more) = tree.follow l more := by
  induction parts generalizing here with
  | nil => rw [List.nil_append, Except.ok.inj h]
  | cons part rest ih =>
    obtain ⟨hfits, hthere, hrest⟩ := follow_cons_eq_ok_iff.mp h
    have hnext : tree.node? (enter here part) = some .directory := by
      cases rest with
      | nil => rw [Except.ok.inj hrest, hdirectory]
      | cons next others => exact hthere (List.cons_ne_nil _ _)
    rw [List.cons_append, follow_cons hfits fun _ => hnext]
    exact ih hrest

/-- Components that go on from somewhere go on from a directory. -/
theorem exists_follow_of_append (hne : more ≠ []) (hhere : tree.node? here = some .directory)
    (h : tree.follow here (parts ++ more) = .ok l) :
    ∃ middle, tree.follow here parts = .ok middle ∧ tree.node? middle = some .directory := by
  induction parts generalizing here with
  | nil => exact ⟨here, rfl, hhere⟩
  | cons part rest ih =>
    obtain ⟨hfits, hthere, hrest⟩ := follow_cons_eq_ok_iff.mp h
    have hnext := hthere (List.append_ne_nil_of_right_ne_nil _ hne)
    obtain ⟨middle, hmiddle, hdirectory⟩ := ih hnext hrest
    exact ⟨middle, (follow_cons hfits fun _ => hnext).trans hmiddle, hdirectory⟩

theorem locate_of_noNull (h : p.hasNull = false) :
    tree.locate p = tree.follow (tree.start p) p.parts := by
  rw [locate, h, if_neg Bool.false_ne_true]

/-- A path leads where its components lead, if no null character is in them. -/
theorem locate_eq_ok_iff :
    tree.locate p = .ok l ↔ p.hasNull = false ∧ tree.follow (tree.start p) p.parts = .ok l := by
  cases hnull : p.hasNull with
  | false => rw [locate_of_noNull hnull, eq_self, true_and]
  | true => simp [locate, hnull]

/-- A path that leads somewhere leads to the location that it spells. -/
theorem eq_reach_of_locate (h : tree.locate p = .ok l) : l = tree.reach p :=
  follow_eq_foldl (locate_eq_ok_iff.mp h).2

/-- A path goes on leading to its location. -/
theorem Keeps.locate (h : Keeps before after) (hl : before.locate p = .ok l) :
    after.locate p = .ok l := by
  obtain ⟨hnull, hfollow⟩ := locate_eq_ok_iff.mp hl
  rw [locate_of_noNull hnull, h.start]
  exact follow_mono h.directory hfollow

/-- No component of a path is too long for the name of a file. -/
def Fits (p : Path) : Prop := ∀ part ∈ p.parts, part.utf8ByteSize ≤ nameLimit

theorem fits_of_follow (h : tree.follow here parts = .ok l) :
    ∀ part ∈ parts, part.utf8ByteSize ≤ nameLimit := by
  induction parts generalizing here with
  | nil => exact List.forall_mem_nil _
  | cons part rest ih =>
    obtain ⟨hfits, -, hrest⟩ := follow_cons_eq_ok_iff.mp h
    exact List.forall_mem_cons.mpr ⟨hfits, ih hrest⟩

/-- A path that leads somewhere fits. -/
theorem fits_of_locate (h : tree.locate p = .ok l) : Fits p :=
  fits_of_follow (locate_eq_ok_iff.mp h).2

theorem follow_ne_nameTooLong (h : ∀ part ∈ parts, part.utf8ByteSize ≤ nameLimit) :
    tree.follow here parts ≠ .error .nameTooLong := by
  intro herror
  induction parts generalizing here with
  | nil => cases herror
  | cons part rest ih =>
    rw [List.forall_mem_cons] at h
    rcases of_follow_cons_eq_error herror with ⟨hlong, -⟩ | ⟨-, hcause⟩ | ⟨-, -, hcause⟩ | hrest
    · exact Nat.not_lt.mpr h.1 hlong
    · cases hcause
    · cases hcause
    · exact ih h.2 hrest

/-- A path that fits is looked at without an error. -/
theorem isFile_of_file?_eq_none (h : Fits p) (hfile : tree.file? (tree.reach p) = none) :
    tree.isFile p = .ok false := by
  rw [isFile, find?]
  cases hl : tree.locate p with
  | error e =>
    -- A path that fits may lead nowhere, but not for its length.
    have hne : e ≠ .nameTooLong := by
      rintro rfl
      rw [FileTree.locate] at hl
      split at hl
      next => cases hl
      next => exact follow_ne_nameTooLong h hl
    cases e with
    | nameTooLong => exact absurd rfl hne
    | _ => rfl
  | ok l =>
    obtain rfl := eq_reach_of_locate hl
    rw [file?] at hfile
    cases hnode : tree.node? (tree.reach p) with
    | none => simp [hnode]
    | some node =>
      rw [hnode] at hfile
      cases node with
      | file content => cases hfile
      | directory => simp [hnode]

theorem read_eq_ok {content : List UInt8} :
    tree.read p = .ok content ↔
      tree.locate p = .ok (tree.reach p) ∧ tree.file? (tree.reach p) = some content := by
  rw [read, find?]
  cases hl : tree.locate p with
  | error e => simp
  | ok l =>
    obtain rfl := eq_reach_of_locate hl
    simp only [file?, true_and]
    cases tree.node? (tree.reach p) with
    | none => simp
    | some node => cases node <;> simp [Node.content?]

theorem exists_locate_of_isFile (h : tree.isFile p = .ok true) : ∃ l, tree.locate p = .ok l := by
  rw [isFile, find?] at h
  cases hl : tree.locate p with
  | ok l => exact ⟨l, rfl⟩
  | error e =>
    rw [hl] at h
    cases e <;> cases h

theorem isFile_of_read {content : List UInt8} (h : tree.read p = .ok content) :
    tree.isFile p = .ok true := by
  rw [read] at h
  rw [isFile]
  split at h
  next => cases h
  next => cases h
  next => cases h
  next hfind => rw [hfind]

/-! ## Setting a node -/

theorem node?_of_isPrefixOf (h : l.isPrefixOf tree.home) : tree.node? l = some .directory := by
  rw [node?, if_pos h]

theorem node?_set_self (h : tree.node? l ≠ some .directory) :
    (tree.set l node).node? l = some node := by
  have hp : ¬ l.isPrefixOf tree.home := fun hp => h (node?_of_isPrefixOf hp)
  exact (if_neg hp).trans (Table.lookup_set_self l node tree.nodes)

theorem node?_set_of_ne (h : l' ≠ l) : (tree.set l node).node? l' = tree.node? l' := by
  rw [node?, node?, ← Table.lookup_set_of_ne h node tree.nodes]
  rfl

theorem keeps_set (h : tree.node? l ≠ some .directory) : Keeps tree (tree.set l node) := by
  refine ⟨rfl, fun l' hl' => ?_⟩
  have hne : l' ≠ l := by
    rintro rfl
    exact h hl'
  rw [node?_set_of_ne hne, hl']

theorem extends_set_directory (h : tree.node? l = none) : Extends tree (tree.set l .directory) := by
  have hd : tree.node? l ≠ some .directory := by
    rw [h]
    simp
  refine ⟨keeps_set hd, fun l' => ?_⟩
  by_cases hl : l' = l
  · rw [hl, file?, node?_set_self hd, file?, h]
    rfl
  · rw [file?, node?_set_of_ne hl, file?]

/-! ## Writing -/

/-- A file can be written where its path leads, unless a directory stands there. -/
theorem of_write_eq_ok {content : List UInt8} (h : tree.write p content = .ok after) :
    tree.locate p = .ok (tree.reach p) ∧ tree.node? (tree.reach p) ≠ some .directory ∧
      after = tree.set (tree.reach p) (.file content) := by
  rw [write] at h
  split at h
  next => cases h
  next l hl =>
    obtain rfl := eq_reach_of_locate hl
    split at h
    next => cases h
    next hnode =>
      refine ⟨hl, ?_, (Except.ok.inj h).symm⟩
      rw [hnode]
      simp
    next hnode _ =>
      refine ⟨hl, ?_, (Except.ok.inj h).symm⟩
      rw [hnode]
      simp
    next => cases h
    next => cases h

/-- What a written file holds, and that the others hold what they did. -/
structure Wrote (before : FileTree) (p : Path) (content : List UInt8) (after : FileTree) :
    Prop extends Keeps before after where
  locate : after.locate p = .ok (before.reach p)
  self : after.file? (before.reach p) = some content
  other : ∀ l, l ≠ before.reach p → after.file? l = before.file? l

theorem wrote_of_write {content : List UInt8} (h : tree.write p content = .ok after) :
    Wrote tree p content after := by
  obtain ⟨hl, hnode, rfl⟩ := of_write_eq_ok h
  refine ⟨keeps_set hnode, (keeps_set hnode).locate hl, ?_, fun l hne => ?_⟩
  · rw [file?, node?_set_self hnode]
    rfl
  · rw [file?, node?_set_of_ne hne, file?]

theorem Wrote.read {content : List UInt8} (h : Wrote before p content after) :
    after.read p = .ok content := by
  rw [read_eq_ok, h.toKeeps.reach]
  exact ⟨h.locate, h.self⟩

/-- What has been written can be written again. -/
theorem Wrote.write {content : List UInt8} (h : Wrote before p content middle)
    (content' : List UInt8) : ∃ after, middle.write p content' = .ok after ∧
      Wrote before p content' after := by
  have hnode : middle.node? (before.reach p) = some (.file content) := by
    have hself := h.self
    rw [file?, Option.bind_eq_some_iff] at hself
    obtain ⟨node, hnode, hcontent⟩ := hself
    cases node with
    | directory => cases hcontent
    | file c =>
      obtain rfl : c = content := Option.some.inj hcontent
      exact hnode
  have hwrite : middle.write p content' = .ok (middle.set (before.reach p) (.file content')) := by
    rw [FileTree.write, h.locate]
    simp only [hnode]
  have hwrote := wrote_of_write hwrite
  have hreach := h.toKeeps.reach p
  refine ⟨_, hwrite, ⟨h.toKeeps.trans hwrote.toKeeps, hreach ▸ hwrote.locate,
    hreach ▸ hwrote.self, fun l hne => ?_⟩⟩
  rw [hwrote.other l (hreach.symm ▸ hne), h.other l hne]

/-! ## Making directories -/

theorem extends_of_makeDirectory (h : tree.makeDirectory p = .ok after) : Extends tree after := by
  rw [makeDirectory] at h
  split at h
  next => cases h
  next l _ =>
    split at h
    next => cases h
    next hnode _ =>
      obtain rfl := Except.ok.inj h
      exact extends_set_directory hnode
    next => cases h
    next => cases h

theorem extends_of_ensureDirectory (h : tree.ensureDirectory p = .ok after) :
    Extends tree after := by
  rw [ensureDirectory] at h
  split at h
  next =>
    split at h
    next =>
      obtain rfl := Except.ok.inj h
      exact .refl tree
    next => cases h
  next => exact extends_of_makeDirectory h

theorem extends_orUnchanged {result : Except FileError FileTree}
    (h : ∀ after, result = .ok after → Extends tree after) :
    Extends tree (tree.orUnchanged result).1 := by
  cases result with
  | error e => exact .refl tree
  | ok changed => exact h changed rfl

/-- Making directories adds nothing but directories, whether it succeeds or not. -/
theorem extends_makeDirectoriesUpTo (tree : FileTree) (levels : Nat) (p : Path) :
    Extends tree (tree.makeDirectoriesUpTo levels p).1 := by
  induction levels generalizing p with
  | zero => exact extends_orUnchanged fun _ h => extends_of_ensureDirectory h
  | succ levels ih =>
    rw [makeDirectoriesUpTo]
    split
    next =>
      have hparent := ih p.parent
      split
      next heq => rwa [heq] at hparent
      next heq =>
        rw [heq] at hparent
        exact hparent.trans (extends_orUnchanged fun _ h => extends_of_ensureDirectory h)
    next => exact extends_orUnchanged fun _ h => extends_of_ensureDirectory h

theorem extends_makeDirectories (tree : FileTree) (p : Path) :
    Extends tree (tree.makeDirectories p).1 :=
  extends_makeDirectoriesUpTo tree p.parts.length p

/-! ## Opening files for writing -/

/-- A file that cannot be opened is as it was, and so are all others. -/
theorem extends_of_openForWriting_error {e : FileError}
    (h : tree.openForWriting p = (after, .error e)) : Extends tree after := by
  have hmade := extends_makeDirectories tree p.parent
  rw [openForWriting] at h
  split at h
  next made e' heq =>
    obtain ⟨rfl, -⟩ := Prod.mk.inj h
    rwa [heq] at hmade
  next made heq =>
    rw [heq] at hmade
    cases hw : made.write p [] with
    | error e' =>
      rw [hw] at h
      obtain ⟨rfl, -⟩ := Prod.mk.inj h
      exact hmade
    | ok changed =>
      rw [hw] at h
      cases (Prod.mk.inj h).2

/-- A file that is opened is empty, and all others are as they were. -/
theorem wrote_of_openForWriting_ok (h : tree.openForWriting p = (after, .ok ())) :
    Wrote tree p [] after := by
  have hmade := extends_makeDirectories tree p.parent
  rw [openForWriting] at h
  split at h
  next => cases (Prod.mk.inj h).2
  next made heq =>
    rw [heq] at hmade
    cases hw : made.write p [] with
    | error e =>
      rw [hw] at h
      cases (Prod.mk.inj h).2
    | ok changed =>
      rw [hw] at h
      obtain ⟨rfl, -⟩ := Prod.mk.inj h
      have hwrote := wrote_of_write hw
      have hreach := hmade.toKeeps.reach p
      -- The directories that were made on the way have not moved the location.
      refine ⟨hmade.toKeeps.trans hwrote.toKeeps, hreach ▸ hwrote.locate, hreach ▸ hwrote.self,
        fun l hne => ?_⟩
      rw [hwrote.other l (hreach.symm ▸ hne), hmade.file]

end

end FileTree

end ProviderRegistry
