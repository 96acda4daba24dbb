import ProviderRegistry.Proofs.Deleting

/-!
# Which files can be opened

A path visits locations on its way. Where whatever stands somewhere stands in a directory, the
directories on the way to a file can be made unless a file is visited, and the file can then be
opened unless its own location is, or is made, a directory (`Nested.exists_openForWriting_iff`).
Writing one file so leaves another one that can be opened such (`Opens.puts`).
-/

namespace ProviderRegistry.FileTree

variable {tree middle after : FileTree} {p q : Path} {l l' here : Location}
  {parts init : List String} {part last : String} {node : Node} {content : List UInt8}

/-! ## Trees without gaps -/

/-- Whatever stands somewhere stands in a directory. -/
def Nested (tree : FileTree) : Prop :=
  ∀ l node, tree.node? l = some node → tree.node? l.dropLast = some .directory

theorem WellFormed.nested (h : tree.WellFormed) : tree.Nested := by
  intro l node hnode
  rcases mem_of_node? hnode with hhome | hmem
  · exact directory_of_isPrefix_home ((List.dropLast_prefix l).trans hhome)
  · exact h.inside _ hmem

/-- A node that is put into a directory leaves no gap. -/
theorem Nested.set (h : tree.Nested) (hl : tree.node? l ≠ some .directory)
    (hparent : tree.node? l.dropLast = some .directory) : (tree.set l node).Nested := by
  intro l' node' hnode
  refine (keeps_set hl).directory _ ?_
  by_cases heq : l' = l
  · rw [heq]
    exact hparent
  · rw [node?_set_of_ne heq] at hnode
    exact h l' node' hnode

/-- What a directory leads to by one component stands in a directory, or is one. -/
theorem Nested.directory_of_enter (h : tree.Nested) (hhere : tree.node? here = some .directory)
    (hnode : tree.node? (enter here part) ≠ some .directory) :
    tree.node? (enter here part).dropLast = some .directory := by
  rw [enter] at hnode ⊢
  split at hnode
  next => exact absurd (h here _ hhere) hnode
  next hpart =>
    rw [if_neg hpart, List.dropLast_concat]
    exact hhere

/-! ## Locations on the way -/

/-- A path visits a location when one of its beginnings leads there. -/
def Visits (tree : FileTree) (p : Path) (l : Location) : Prop :=
  ∃ init, init <+: p.parts ∧ init.foldl enter (tree.start p) = l

theorem Keeps.visits_iff (h : tree.Keeps after) : after.Visits p l ↔ tree.Visits p l := by
  rw [Visits, Visits, h.start]

/-- A path visits where it leads, and what the path to its directory visits. -/
theorem visits_iff_of_ne_nil (hne : p.parts ≠ []) :
    tree.Visits p l ↔ tree.reach p = l ∨ tree.Visits p.parent l := by
  have hparts : p.parts = p.parent.parts ++ [p.parts.getLast hne] :=
    (List.dropLast_append_getLast hne).symm
  constructor
  · rintro ⟨init, hinit, hl⟩
    rw [hparts, List.prefix_concat_iff, ← hparts] at hinit
    rcases hinit with rfl | hinit
    · exact .inl hl
    · exact .inr ⟨init, hinit, hl⟩
  · rintro (hl | ⟨init, hinit, hl⟩)
    · exact ⟨p.parts, List.prefix_refl _, hl⟩
    · exact ⟨init, hinit.trans (List.dropLast_prefix _), hl⟩

theorem Visits.of_parent (h : tree.Visits p.parent l) : tree.Visits p l := by
  obtain ⟨init, hinit, hl⟩ := h
  exact ⟨init, hinit.trans (List.dropLast_prefix _), hl⟩

theorem visits_reach (tree : FileTree) (p : Path) : tree.Visits p (tree.reach p) :=
  ⟨p.parts, List.prefix_refl _, rfl⟩

theorem reach_eq_enter (hne : p.parts ≠ []) :
    tree.reach p = enter (tree.reach p.parent) (p.parts.getLast hne) := by
  conv_lhs => rw [reach, ← List.dropLast_append_getLast hne, List.foldl_concat]
  rfl

/-- Whatever a path to a directory visits is a directory. -/
theorem directory_of_visits (hl : tree.locate p = .ok l) (hd : tree.node? l = some .directory)
    (hvisits : tree.Visits p l') : tree.node? l' = some .directory := by
  obtain ⟨root, parts⟩ := p
  induction parts using List.reverseRecOn generalizing l with
  | nil =>
    obtain ⟨init, hinit, rfl⟩ := hvisits
    rw [List.prefix_nil.mp hinit]
    exact node?_start tree _
  | append_singleton parts last ih =>
    have hne : (⟨root, parts ++ [last]⟩ : Path).parts ≠ [] := List.append_ne_nil_of_right_ne_nil _
      (List.cons_ne_nil _ _)
    have hparent : (⟨root, parts ++ [last]⟩ : Path).parent = ⟨root, parts⟩ := by
      rw [Path.parent, List.dropLast_concat]
    rcases (visits_iff_of_ne_nil hne).mp hvisits with rfl | hvisits
    · rw [← eq_reach_of_locate hl]
      exact hd
    · obtain ⟨above, habove, hdirectory⟩ := locate_parent hl hne
      rw [hparent] at habove hvisits
      exact ih hdirectory habove hvisits

/-! ## Following paths further -/

/-- A path leads to its location if its directory is there. -/
theorem locate_of_parent (hne : p.parts ≠ []) (hnull : p.hasNull = false) (hfits : Fits p)
    (hl : tree.locate p.parent = .ok l) (hd : tree.node? l = some .directory) :
    tree.locate p = .ok (tree.reach p) := by
  have hparts : p.parts = p.parent.parts ++ [p.parts.getLast hne] :=
    (List.dropLast_append_getLast hne).symm
  have hreach : tree.reach p = enter l (p.parts.getLast hne) := by
    rw [reach_eq_enter hne, eq_reach_of_locate hl]
  have hfollow : tree.follow (tree.start p) p.parent.parts = .ok l := (locate_eq_ok_iff.mp hl).2
  rw [locate_of_noNull hnull, hreach]
  conv_lhs => rw [hparts, follow_append hfollow hd]
  exact follow_cons (hfits _ (List.getLast_mem hne)) (absurd rfl)

/-- A path that fits and visits no file leads nowhere for one reason only. -/
theorem eq_notFound_of_follow {e : FileError.Cause} (h : tree.follow here parts = .error e)
    (hfits : ∀ part ∈ parts, part.utf8ByteSize ≤ nameLimit)
    (hclear : ∀ init, init <+: parts → tree.file? (init.foldl enter here) = none) :
    e = .notFound := by
  induction parts generalizing here with
  | nil => cases h
  | cons part rest ih =>
    rw [List.forall_mem_cons] at hfits
    have hrest : ∀ init, init <+: rest → tree.file? (init.foldl enter (enter here part)) = none :=
      fun init hinit => hclear (part :: init) (List.cons_prefix_cons.mpr ⟨rfl, hinit⟩)
    rcases of_follow_cons_eq_error h with
      ⟨hlong, -⟩ | ⟨-, hcause⟩ | ⟨-, ⟨content, hfile⟩, -⟩ | hlater
    · exact absurd hlong (Nat.not_lt.mpr hfits.1)
    · exact hcause
    · have hnone := hrest [] List.nil_prefix
      rw [List.foldl_nil, file?, hfile] at hnone
      cases hnone
    · exact ih hlater hfits.2 hrest

theorem eq_notFound_of_locate {e : FileError.Cause} (h : tree.locate p = .error e)
    (hnull : p.hasNull = false) (hfits : Fits p)
    (hclear : ∀ l, tree.Visits p l → tree.file? l = none) : e = .notFound := by
  rw [locate_of_noNull hnull] at h
  exact eq_notFound_of_follow h hfits fun init hinit => hclear _ ⟨init, hinit, rfl⟩

/-! ## Making directories -/

/-- Directories have been made at locations that a path visits, and nothing else has changed. -/
structure Raises (tree : FileTree) (p : Path) (after : FileTree) : Prop
    extends Extends tree after where
  nested : tree.Nested → after.Nested
  node : ∀ l, ¬ tree.Visits p l → after.node? l = tree.node? l

theorem Raises.refl (tree : FileTree) (p : Path) : tree.Raises p tree :=
  ⟨.refl tree, id, fun _ _ => rfl⟩

theorem Raises.trans (h : tree.Raises p middle) (h' : middle.Raises p after) :
    tree.Raises p after := by
  refine ⟨h.toExtends.trans h'.toExtends, fun hn => h'.nested (h.nested hn), fun l hl => ?_⟩
  rw [h'.node l fun hv => hl (h.toKeeps.visits_iff.mp hv), h.node l hl]

theorem Raises.of_parent (h : tree.Raises p.parent after) : tree.Raises p after :=
  ⟨h.toExtends, h.nested, fun l hl => h.node l fun hv => hl hv.of_parent⟩

/-- What making a directory has done. -/
theorem of_makeDirectory (h : tree.makeDirectory p = .ok after) :
    tree.Raises p after ∧ after.locate p = .ok (tree.reach p) ∧
      after.node? (tree.reach p) = some .directory := by
  rw [makeDirectory] at h
  split at h
  next => cases h
  next l hl =>
    obtain rfl := eq_reach_of_locate hl
    split at h
    next => cases h
    next hnone hparent =>
      obtain rfl := Except.ok.inj h
      have hfree : tree.node? (tree.reach p) ≠ some .directory := by
        rw [hnone]
        exact (Option.some_ne_none _).symm
      have hextends := extends_set_directory hnone
      refine ⟨⟨hextends, fun hn => hn.set hfree hparent, fun l hl => ?_⟩,
        hextends.toKeeps.locate hl, node?_set_self hfree⟩
      have hne : l ≠ tree.reach p := by
        rintro rfl
        exact hl (visits_reach tree p)
      exact node?_set_of_ne hne
    next => cases h
    next => cases h

theorem of_ensureDirectory (h : tree.ensureDirectory p = .ok after) :
    tree.Raises p after ∧ after.locate p = .ok (tree.reach p) ∧
      after.node? (tree.reach p) = some .directory := by
  rw [ensureDirectory] at h
  split at h
  next =>
    split at h
    next hdirectory =>
      obtain rfl := Except.ok.inj h
      refine ⟨.refl tree p, ?_⟩
      cases hl : tree.locate p with
      | error e => cases e <;> simp [isDirectory, find?, hl] at hdirectory
      | ok l =>
        obtain rfl := eq_reach_of_locate hl
        refine ⟨rfl, ?_⟩
        rw [isDirectory, find?, hl] at hdirectory
        cases hnode : tree.node? (tree.reach p) with
        | none => simp [hnode] at hdirectory
        | some node => cases node <;> simp_all
    next => cases h
  next => exact of_makeDirectory h

theorem raises_orUnchanged {result : Except FileError FileTree}
    (h : ∀ after, result = .ok after → tree.Raises p after) :
    tree.Raises p (tree.orUnchanged result).1 := by
  cases result with
  | error e => exact .refl tree p
  | ok changed => exact h changed rfl

theorem raises_makeDirectoriesUpTo (tree : FileTree) (levels : Nat) (p : Path) :
    tree.Raises p (tree.makeDirectoriesUpTo levels p).1 := by
  induction levels generalizing p with
  | zero => exact raises_orUnchanged fun _ h => (of_ensureDirectory h).1
  | succ levels ih =>
    rw [makeDirectoriesUpTo]
    split
    next =>
      have hparent := (ih p.parent).of_parent
      split
      next heq => rwa [heq] at hparent
      next heq =>
        rw [heq] at hparent
        exact hparent.trans (raises_orUnchanged fun _ h => (of_ensureDirectory h).1)
    next => exact raises_orUnchanged fun _ h => (of_ensureDirectory h).1

theorem orUnchanged_eq_ok {result : Except FileError FileTree}
    (h : tree.orUnchanged result = (after, .ok ())) : result = .ok after := by
  cases result with
  | error e => cases (Prod.mk.inj h).2
  | ok changed => rw [(Prod.mk.inj h).1]

theorem raises_of_makeDirectories {result : Except FileError Unit}
    (h : tree.makeDirectories p = (after, result)) : tree.Raises p after := by
  have hraises := raises_makeDirectoriesUpTo tree p.parts.length p
  rw [makeDirectories] at h
  rwa [h] at hraises

/-- Directories that have been made are there. -/
theorem directory_of_makeDirectoriesUpTo {levels : Nat}
    (h : tree.makeDirectoriesUpTo levels p = (after, .ok ())) :
    after.locate p = .ok (tree.reach p) ∧ after.node? (tree.reach p) = some .directory := by
  cases levels with
  | zero => exact (of_ensureDirectory (orUnchanged_eq_ok h)).2
  | succ levels =>
    rw [makeDirectoriesUpTo] at h
    split at h
    next =>
      split at h
      next => cases (Prod.mk.inj h).2
      next made heq =>
        have hmade := (raises_makeDirectoriesUpTo tree levels p.parent).toKeeps.reach p
        rw [heq] at hmade
        have hensured := (of_ensureDirectory (orUnchanged_eq_ok h)).2
        rwa [hmade] at hensured
    next => exact (of_ensureDirectory (orUnchanged_eq_ok h)).2

/-- In a directory, a directory can be made in which no file stands. -/
theorem Nested.exists_ensureDirectory (h : tree.Nested) (hne : p.parts ≠ [])
    (hnull : p.hasNull = false) (hfits : Fits p) (hl : tree.locate p.parent = .ok l)
    (hd : tree.node? l = some .directory) (hfile : tree.file? (tree.reach p) = none) :
    ∃ after, tree.ensureDirectory p = .ok after := by
  have hlocate := locate_of_parent hne hnull hfits hl hd
  cases hnode : tree.node? (tree.reach p) with
  | some node =>
    cases node with
    | file content =>
      rw [file?, hnode] at hfile
      cases hfile
    | directory => exact ⟨tree, ensureDirectory_of_directory hlocate hnode⟩
  | none =>
    have hparent : tree.node? (tree.reach p).dropLast = some .directory := by
      rw [reach_eq_enter hne, ← eq_reach_of_locate hl] at hnode ⊢
      refine h.directory_of_enter hd ?_
      rw [hnode]
      exact (Option.some_ne_none _).symm
    have hmake : tree.makeDirectory p = .ok (tree.set (tree.reach p) .directory) := by
      rw [makeDirectory, hlocate]
      simp only [hnode, hparent]
    exact ⟨_, by rw [ensureDirectory, hmake]⟩

/-- **Directories can be made along a path that visits no file.** -/
theorem Nested.exists_makeDirectories (h : tree.Nested) (hnull : p.hasNull = false)
    (hfits : Fits p) (hclear : ∀ l, tree.Visits p l → tree.file? l = none) :
    ∃ after, tree.makeDirectories p = (after, .ok ()) := by
  obtain ⟨root, parts⟩ := p
  rw [makeDirectories]
  induction parts using List.reverseRecOn with
  | nil =>
    have hlocate : tree.locate ⟨root, []⟩ = .ok (tree.start ⟨root, []⟩) := rfl
    have hensure := ensureDirectory_of_directory hlocate (node?_start tree _)
    exact ⟨tree, by rw [List.length_nil, makeDirectoriesUpTo, hensure]; rfl⟩
  | append_singleton parts last ih =>
    set p : Path := ⟨root, parts ++ [last]⟩ with hp
    have hne : p.parts ≠ [] := List.append_ne_nil_of_right_ne_nil _ (List.cons_ne_nil _ _)
    have hparent : p.parent = ⟨root, parts⟩ := by rw [Path.parent, hp, List.dropLast_concat]
    rw [hp, List.length_append, List.length_singleton, ← hp, makeDirectoriesUpTo]
    cases hl : tree.locate p with
    | ok l =>
      obtain ⟨above, habove, hdirectory⟩ := locate_parent hl hne
      obtain ⟨made, hmade⟩ := h.exists_ensureDirectory hne hnull hfits habove hdirectory
        (hclear _ (visits_reach tree p))
      exact ⟨made, by rw [hmade]; rfl⟩
    | error e =>
      obtain rfl := eq_notFound_of_locate hl hnull hfits hclear
      have hmissing : tree.ensureDirectory p = .error ⟨.notFound, p⟩ := by
        rw [ensureDirectory, makeDirectory, hl]
      have hnull' : (⟨root, parts⟩ : Path).hasNull = false := by
        rw [Path.hasNull, List.any_append, Bool.or_eq_false_iff] at hnull
        exact hnull.1
      obtain ⟨above, habove⟩ := ih hnull' (fun part hpart => hfits part (List.mem_append_left _ hpart))
        fun l hl => hclear l (hparent ▸ hl).of_parent
      have hraises := raises_of_makeDirectories (p := ⟨root, parts⟩) habove
      obtain ⟨hlocated, hdirectory⟩ := directory_of_makeDirectoriesUpTo habove
      have hfile : above.file? (above.reach p) = none := by
        rw [hraises.toKeeps.reach, hraises.file]
        exact hclear _ (visits_reach tree p)
      obtain ⟨made, hmade⟩ := (hraises.nested h).exists_ensureDirectory hne hnull hfits
        (hparent ▸ hlocated) hdirectory hfile
      refine ⟨made, ?_⟩
      rw [hmissing, hparent]
      simp only [habove, hmade]
      rfl

/-! ## Opening files -/

/-- A file can be opened for writing: nothing is wrong with its path, no file is on the way, and
no directory stands at its location or is made there on the way. -/
structure Opens (tree : FileTree) (p : Path) : Prop where
  ne_nil : p.parts ≠ []
  noNull : p.hasNull = false
  fits : Fits p
  clear : ∀ l, tree.Visits p.parent l → tree.file? l = none
  apart : ¬ tree.Visits p.parent (tree.reach p)
  free : tree.node? (tree.reach p) ≠ some .directory

/-- What opening a file has made of a tree. -/
theorem of_openForWriting_eq_ok (h : tree.openForWriting p = (after, .ok ())) :
    ∃ made, tree.makeDirectories p.parent = (made, .ok ()) ∧ tree.Raises p.parent made ∧
      made.write p [] = .ok after := by
  rw [openForWriting] at h
  split at h
  next => cases (Prod.mk.inj h).2
  next made heq => exact ⟨made, heq, raises_of_makeDirectories heq, orUnchanged_eq_ok h⟩

/-- A file that has been opened could be. -/
theorem opens_of_openForWriting (hopen : tree.openForWriting p = (after, .ok ())) :
    tree.Opens p := by
  obtain ⟨made, hmade, hraises, hwrite⟩ := of_openForWriting_eq_ok hopen
  obtain ⟨hlocate, hfree, -⟩ := of_write_eq_ok hwrite
  rw [hraises.toKeeps.reach] at hfree
  obtain ⟨hparent, hdirectory⟩ := directory_of_makeDirectoriesUpTo hmade
  have hdirectories : ∀ l, tree.Visits p.parent l → made.node? l = some .directory := by
    intro l hl
    exact directory_of_visits hparent hdirectory (hraises.toKeeps.visits_iff.mpr hl)
  constructor
  case ne_nil =>
    intro hnil
    have hstart : tree.reach p = tree.start p := by
      rw [reach, hnil]
      rfl
    rw [hstart] at hfree
    exact hfree (hraises.toKeeps.directory _ (node?_start tree p))
  case noNull => exact (locate_eq_ok_iff.mp hlocate).1
  case fits => exact fits_of_locate hlocate
  case clear =>
    intro l hl
    rw [← hraises.file, file?, hdirectories l hl]
    rfl
  case apart => exact fun hvisits => hfree (hdirectories _ hvisits)
  case free => exact fun hd => hfree (hraises.toKeeps.directory _ hd)

/-- A path can be written to when it leads into a directory, and to no directory. -/
theorem exists_write (hlocate : tree.locate p = .ok l)
    (habove : tree.node? l.dropLast = some .directory) (hfree : tree.node? l ≠ some .directory)
    (content : List UInt8) : ∃ after, tree.write p content = .ok after := by
  refine ⟨tree.set l (.file content), ?_⟩
  rw [write, hlocate]
  simp only [habove]
  cases hnode : tree.node? l with
  | none => rfl
  | some node =>
    cases node with
    | file held => rfl
    | directory => exact absurd hnode hfree

theorem Nested.exists_openForWriting (h : tree.Nested) (hopens : tree.Opens p) :
    ∃ after, tree.openForWriting p = (after, .ok ()) := by
  have hfits : Fits p.parent := fun part hpart => hopens.fits part (List.dropLast_subset _ hpart)
  obtain ⟨made, hmade⟩ := h.exists_makeDirectories (noNull_parent hopens.noNull) hfits hopens.clear
  have hraises := raises_of_makeDirectories hmade
  obtain ⟨hparent, hdirectory⟩ := directory_of_makeDirectoriesUpTo hmade
  have hlocate := locate_of_parent hopens.ne_nil hopens.noNull hopens.fits hparent hdirectory
  have hfree : made.node? (made.reach p) ≠ some .directory := by
    rw [hraises.toKeeps.reach, hraises.node _ hopens.apart]
    exact hopens.free
  have habove : made.node? (made.reach p).dropLast = some .directory := by
    rw [reach_eq_enter hopens.ne_nil, hraises.toKeeps.reach] at hfree ⊢
    exact (hraises.nested h).directory_of_enter hdirectory hfree
  obtain ⟨after, hwrite⟩ := exists_write hlocate habove hfree []
  refine ⟨after, ?_⟩
  rw [openForWriting, hmade]
  simp only [hwrite]
  rfl

/-- **When a file can be opened.** -/
theorem Nested.exists_openForWriting_iff (h : tree.Nested) :
    (∃ after, tree.openForWriting p = (after, .ok ())) ↔ tree.Opens p :=
  ⟨fun ⟨_, hopen⟩ => opens_of_openForWriting hopen, h.exists_openForWriting⟩

/-! ## Writing files -/

/-- A file has been written, with directories on the way to it, and nothing else has changed. -/
structure Puts (tree : FileTree) (p : Path) (content : List UInt8) (after : FileTree) : Prop
    extends Wrote tree p content after where
  nested : tree.Nested → after.Nested
  node : ∀ l, l ≠ tree.reach p → ¬ tree.Visits p.parent l → after.node? l = tree.node? l

/-- **A file that can be opened stays such when another one is written**, unless one of them is
in the way of the other. -/
theorem Opens.puts (h : tree.Opens q) (hputs : tree.Puts p content after)
    (hpq : ¬ tree.Visits q.parent (tree.reach p)) (hqp : ¬ tree.Visits p.parent (tree.reach q)) :
    after.Opens q := by
  have hkeeps := hputs.toKeeps
  refine ⟨h.ne_nil, h.noNull, h.fits, fun l hl => ?_, fun hvisits => ?_, ?_⟩
  · have hl := hkeeps.visits_iff.mp hl
    have hne : l ≠ tree.reach p := by
      rintro rfl
      exact hpq hl
    rw [hputs.other l hne]
    exact h.clear l hl
  · rw [hkeeps.reach] at hvisits
    exact h.apart (hkeeps.visits_iff.mp hvisits)
  · rw [hkeeps.reach]
    by_cases heq : tree.reach q = tree.reach p
    · rw [heq, node?_of_file? hputs.self]
      exact fun hfile => Node.noConfusion (Option.some.inj hfile)
    · rw [hputs.node _ heq hqp]
      exact h.free

/-- A file that is opened and then written has been put. -/
theorem puts_of_openForWriting {opened : FileTree} (hopen : tree.openForWriting p = (opened, .ok ()))
    (hwrite : opened.write p content = .ok after) : tree.Puts p content after := by
  have hwrote := wrote_of_openForWriting_ok hopen
  obtain ⟨after', hwrite', hafter⟩ := hwrote.write content
  obtain rfl : after' = after := Except.ok.inj (hwrite'.symm.trans hwrite)
  obtain ⟨made, hmade, hraises, hopened⟩ := of_openForWriting_eq_ok hopen
  obtain ⟨hlocate, hfree, rfl⟩ := of_write_eq_ok hopened
  obtain ⟨-, hfree', rfl⟩ := of_write_eq_ok hwrite
  have hreach : made.reach p = tree.reach p := hraises.toKeeps.reach p
  have hreach' : (made.set (made.reach p) (.file [])).reach p = tree.reach p :=
    hwrote.toKeeps.reach p
  refine ⟨hafter, fun hn => ?_, fun l hne hvisits => ?_⟩
  · have hne : p.parts ≠ [] := by
      intro hnil
      have hstart : made.reach p = made.start p := by
        rw [reach, hnil]
        rfl
      exact hfree (hstart ▸ node?_start made p)
    obtain ⟨above, habove, hdirectory⟩ := locate_parent hlocate hne
    have hinside : made.node? (made.reach p).dropLast = some .directory := by
      rw [reach_eq_enter hne, ← eq_reach_of_locate habove] at hfree ⊢
      exact (hraises.nested hn).directory_of_enter hdirectory hfree
    have hopened : (made.set (made.reach p) (.file [])).Nested :=
      (hraises.nested hn).set hfree hinside
    refine hopened.set hfree' ?_
    rw [hreach', ← hreach]
    exact (keeps_set hfree).directory _ hinside
  · rw [hreach', node?_set_of_ne hne, hreach, node?_set_of_ne hne, hraises.node l hvisits]

end ProviderRegistry.FileTree
