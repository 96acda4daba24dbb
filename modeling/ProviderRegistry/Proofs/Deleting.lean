import Mathlib.Data.List.Infix
import ProviderRegistry.Proofs.Overwriting

/-!
# Deleting files

In a file tree as a system has it, every entry stands once and below a directory that stands
too (`FileTree.WellFormed`). What a directory lists can then be read under the path of the
directory (`FileTree.WellFormed.read_below`), and deleting files takes nothing else away: paths
lead where they led, and the other files hold what they held (`FileTree.Sheds`).
-/

namespace ProviderRegistry

/-! ## Sorting what is left -/

/-- Two lists that are split by one property are equal if they are equal as a whole. -/
theorem left_eq_of_append_eq {α : Type} {p : α → Bool} {l r l' r' : List α}
    (hl : ∀ a ∈ l, p a = true) (hr : ∀ a ∈ r, p a = false) (hl' : ∀ a ∈ l', p a = true)
    (hr' : ∀ a ∈ r', p a = false) (h : l ++ r = l' ++ r') : l = l' := by
  have hfilter := congrArg (List.filter p) h
  rw [List.filter_append, List.filter_append, List.filter_eq_self.mpr hl,
    List.filter_eq_self.mpr hl', List.filter_eq_nil_iff.mpr fun a ha => by simp [hr a ha],
    List.filter_eq_nil_iff.mpr fun a ha => by simp [hr' a ha], List.append_nil,
    List.append_nil] at hfilter
  exact hfilter

/-- Sorting keeps the order of what is left when other items are taken away. -/
theorem filter_mergeSort {α : Type} {le : α → α → Bool}
    (htrans : ∀ a b c, le a b = true → le b c = true → le a c = true)
    (htotal : ∀ a b, (le a b || le b a) = true) (p : α → Bool) (l : List α) :
    (l.mergeSort le).filter p = (l.filter p).mergeSort le := by
  induction l with
  | nil => simp
  | cons a rest ih =>
    obtain ⟨before, after, hsort, hrest, hbefore⟩ := List.mergeSort_cons htrans htotal a rest
    rw [hsort, List.filter_append]
    rw [hrest, List.filter_append] at ih
    by_cases ha : p a = true
    · rw [List.filter_cons_of_pos ha, List.filter_cons_of_pos ha]
      obtain ⟨before', after', hsort', hrest', hbefore'⟩ :=
        List.mergeSort_cons htrans htotal a (rest.filter p)
      -- What comes before `a` is what is not above it, in both lists.
      have habove {l : List α} {b a' : List α} (hs : l.mergeSort le = b ++ a :: a') :
          ∀ c ∈ a', (!le a c) = false := by
        intro c hc
        have hsorted := List.pairwise_mergeSort htrans htotal l
        rw [hs] at hsorted
        have hle := List.rel_of_pairwise_cons (List.pairwise_append.mp hsorted).2.1 hc
        rw [hle]
        rfl
      have hwhole : before.filter p ++ after.filter p = before' ++ after' := by
        rw [ih, hrest']
      have hleft : before.filter p = before' :=
        left_eq_of_append_eq (fun c hc => hbefore c (List.mem_filter.mp hc).1)
          (fun c hc => habove hsort c (List.mem_filter.mp hc).1) hbefore' (habove hsort') hwhole
      rw [hsort', hleft]
      rw [hleft, List.append_cancel_left_eq] at hwhole
      rw [hwhole]
    · rw [List.filter_cons_of_neg ha, List.filter_cons_of_neg ha, ih]

namespace FileTree

/-! ## Trees as a system has them -/

/-- A name that a file or a directory can have. -/
structure IsEntryName (name : String) : Prop extends IsFileName name where
  noNull : Char.ofNat 0 ∉ name.toList
  fits : name.utf8ByteSize ≤ nameLimit

/-- Every entry of a tree stands at its location, under names that it can have and in a directory,
and is listed once. -/
structure WellFormed (tree : FileTree) : Prop where
  nodup : (tree.nodes.map (·.1)).Nodup
  stands : ∀ entry ∈ tree.nodes, tree.node? entry.1 = some entry.2
  inside : ∀ entry ∈ tree.nodes, tree.node? entry.1.dropLast = some .directory
  names : ∀ entry ∈ tree.nodes, ∀ part ∈ entry.1, IsEntryName part

instance (name : String) : Decidable (IsEntryName name) :=
  decidable_of_iff (IsFileName name ∧ Char.ofNat 0 ∉ name.toList ∧ name.utf8ByteSize ≤ nameLimit)
    ⟨fun ⟨h1, h2, h3⟩ => ⟨h1, h2, h3⟩, fun ⟨h1, h2, h3⟩ => ⟨h1, h2, h3⟩⟩

instance (tree : FileTree) : Decidable tree.WellFormed :=
  decidable_of_iff ((tree.nodes.map (·.1)).Nodup ∧
      (∀ entry ∈ tree.nodes, tree.node? entry.1 = some entry.2) ∧
      (∀ entry ∈ tree.nodes, tree.node? entry.1.dropLast = some .directory) ∧
      ∀ entry ∈ tree.nodes, ∀ part ∈ entry.1, IsEntryName part)
    ⟨fun ⟨h1, h2, h3, h4⟩ => ⟨h1, h2, h3, h4⟩, fun ⟨h1, h2, h3, h4⟩ => ⟨h1, h2, h3, h4⟩⟩

variable {tree tree' : FileTree} {l m here : Location} {p : Path} {content : List UInt8}

theorem directory_of_isPrefix_home (h : m <+: tree.home) : tree.node? m = some .directory :=
  node?_of_isPrefixOf (List.isPrefixOf_iff_prefix.mpr h)

/-- What stands at a location is listed there, unless the working directory is at or below it. -/
theorem mem_of_node? {node : Node} (h : tree.node? l = some node) :
    l <+: tree.home ∨ (l, node) ∈ tree.nodes := by
  rw [node?] at h
  split at h
  next hhome => exact .inl (List.isPrefixOf_iff_prefix.mp hhome)
  next => exact .inr (Table.mem_of_lookup h)

theorem node?_of_file? (h : tree.file? l = some content) :
    tree.node? l = some (.file content) := by
  rw [file?, Option.bind_eq_some_iff] at h
  obtain ⟨node, hnode, hcontent⟩ := h
  cases node with
  | directory => cases hcontent
  | file c => rw [hnode, Option.some.inj hcontent]

namespace WellFormed

variable (h : tree.WellFormed)

include h

/-- Above whatever stands somewhere there are directories only. -/
theorem directory_of_isPrefix {node : Node} (hm : tree.node? m = some node) (hl : l <+: m)
    (hne : l ≠ m) : tree.node? l = some .directory := by
  -- By induction on the location: what is above it is its own directory or above that.
  induction m using List.reverseRecOn generalizing node with
  | nil => exact absurd (List.prefix_nil.mp hl) hne
  | append_singleton m last ih =>
    have hl := (List.prefix_concat_iff.mp hl).resolve_left hne
    rcases mem_of_node? hm with hhome | hmem
    · exact directory_of_isPrefix_home (hl.trans ((List.prefix_append m [last]).trans hhome))
    · have hdirectory := h.inside _ hmem
      rw [List.dropLast_concat] at hdirectory
      by_cases heq : l = m
      · exact heq ▸ hdirectory
      · exact ih hdirectory hl heq

/-- Nothing stands below a file. -/
theorem eq_of_isPrefix_of_file (hl : tree.node? l = some (.file content)) {node : Node}
    (hm : (m, node) ∈ tree.nodes) (hbelow : l <+: m) : m = l := by
  by_contra hne
  have hdirectory := h.directory_of_isPrefix (h.stands _ hm) hbelow (Ne.symm hne)
  rw [hl] at hdirectory
  cases hdirectory

end WellFormed

/-! ## Paths below directories -/

theorem follow_below {parts : List String} (hnames : ∀ part ∈ parts, IsEntryName part)
    (habove : ∀ initial, initial <+: parts → initial ≠ parts →
      tree.node? (here ++ initial) = some .directory) :
    tree.follow here parts = .ok (here ++ parts) := by
  induction parts generalizing here with
  | nil => rw [follow, List.append_nil]
  | cons part rest ih =>
    rw [List.forall_mem_cons] at hnames
    obtain ⟨hname, hnames⟩ := hnames
    have henter : enter here part = here ++ [part] := if_neg hname.ne_dots
    have hthere (hne : rest ≠ []) : tree.node? (enter here part) = some .directory := by
      rw [henter]
      exact habove [part] ⟨rest, rfl⟩ (by simpa using hne.symm)
    rw [follow_cons hname.fits hthere, henter, List.append_cons here part rest]
    refine ih hnames fun initial hinitial hne => ?_
    rw [← List.append_cons]
    exact habove _ (List.cons_prefix_cons.mpr ⟨rfl, hinitial⟩) fun heq =>
      hne (List.cons_injective heq)

/-- None of some paths leads to or below where another one leads. -/
def Apart (tree : FileTree) (paths : List Path) : Prop :=
  paths.Pairwise fun p q =>
    ¬ tree.reach p <+: tree.reach q ∧ ¬ tree.reach q <+: tree.reach p

instance (tree : FileTree) (paths : List Path) : Decidable (tree.Apart paths) :=
  inferInstanceAs (Decidable (List.Pairwise _ paths))

theorem exists_locate_of_isDirectory (h : tree.isDirectory p = .ok true) :
    ∃ l, tree.locate p = .ok l ∧ tree.node? l = some .directory := by
  rw [isDirectory, find?] at h
  cases hl : tree.locate p with
  | error e =>
    rw [hl] at h
    cases e <;> cases h
  | ok l =>
    rw [hl] at h
    refine ⟨l, rfl, ?_⟩
    simp only at h
    split at h
    next heq => cases heq
    next heq => exact Except.ok.inj heq
    next => cases h

/-- **Reading below a directory.** A file that stands below a directory is what the path of the
directory leads to, when it goes on to the file. -/
theorem WellFormed.read_below (h : tree.WellFormed) {components : List String}
    (hl : tree.locate p = .ok l) (hdirectory : tree.node? l = some .directory)
    (hfile : (l ++ components, .file content) ∈ tree.nodes) :
    tree.locate ⟨p.root, p.parts ++ components⟩ = .ok (l ++ components) ∧
      tree.read ⟨p.root, p.parts ++ components⟩ = .ok content := by
  have hstands := h.stands _ hfile
  have hnames : ∀ part ∈ components, IsEntryName part := fun part hpart =>
    h.names _ hfile part (List.mem_append_right _ hpart)
  have hbelow : tree.follow l components = .ok (l ++ components) := by
    refine follow_below hnames fun initial hinitial hne => ?_
    refine h.directory_of_isPrefix hstands ((List.prefix_append_right_inj l).mpr hinitial) ?_
    exact fun heq => hne (List.append_cancel_left heq)
  obtain ⟨hnull, hfollow⟩ := locate_eq_ok_iff.mp hl
  have hnull' : Path.hasNull ⟨p.root, p.parts ++ components⟩ = false := by
    rw [Path.hasNull, List.any_append, Bool.or_eq_false_iff]
    refine ⟨hnull, List.any_eq_false.mpr fun part hpart => ?_⟩
    rw [List.contains_iff_mem]
    exact (hnames part hpart).noNull
  have hlocate : tree.locate ⟨p.root, p.parts ++ components⟩ = .ok (l ++ components) :=
    locate_eq_ok_iff.mpr ⟨hnull', (follow_append hfollow hdirectory).trans hbelow⟩
  refine ⟨hlocate, ?_⟩
  rw [read, find?, hlocate]
  simp only [hstands]

/-! ## Fewer files -/

/-- A tree without some of its files. -/
structure Sheds (tree : FileTree) (gone : List Location) (tree' : FileTree) : Prop where
  home : tree'.home = tree.home
  nodes : tree'.nodes = tree.nodes.filter fun entry => decide (entry.1 ∉ gone)
  files : ∀ l ∈ gone, ∃ content, tree.node? l = some (.file content)

namespace Sheds

variable {gone : List Location} (h : tree.Sheds gone tree')

include h

theorem node?_of_notMem (hl : l ∉ gone) : tree'.node? l = tree.node? l := by
  rw [node?, node?, h.home, h.nodes]
  split
  next => rfl
  next =>
    induction tree.nodes with
    | nil => rfl
    | cons entry rest ih =>
      by_cases hentry : entry.1 ∈ gone
      · have hne : l ≠ entry.1 := fun heq => hl (heq ▸ hentry)
        rw [List.filter_cons_of_neg (by simpa using hentry), ih, List.lookup_cons,
          beq_false_of_ne hne]
      · rw [List.filter_cons_of_pos (by simpa using hentry), List.lookup_cons, List.lookup_cons, ih]

theorem node?_of_mem (hl : l ∈ gone) : tree'.node? l = none := by
  obtain ⟨content, hfile⟩ := h.files l hl
  have hhome : ¬ l.isPrefixOf tree.home := by
    intro hhome
    rw [node?_of_isPrefixOf hhome] at hfile
    cases hfile
  rw [node?, h.home, if_neg hhome, h.nodes, List.lookup_eq_none_iff]
  intro entry hentry
  rw [bne_iff_ne]
  rintro rfl
  exact of_decide_eq_true (List.mem_filter.mp hentry).2 hl

theorem directory_iff : tree'.node? l = some .directory ↔ tree.node? l = some .directory := by
  by_cases hl : l ∈ gone
  · obtain ⟨content, hfile⟩ := h.files l hl
    rw [h.node?_of_mem hl, hfile]
    simp
  · rw [h.node?_of_notMem hl]

theorem toKeeps : tree.Keeps tree' := ⟨h.home, fun _ => h.directory_iff.mpr⟩

/-- A path that leads somewhere goes on leading there. -/
theorem locate (hl : tree.locate p = .ok l) : tree'.locate p = .ok l := h.toKeeps.locate hl

theorem isDirectory (hp : tree.isDirectory p = .ok true) : tree'.isDirectory p = .ok true := by
  obtain ⟨l, hl, hdirectory⟩ := exists_locate_of_isDirectory hp
  rw [FileTree.isDirectory, find?, h.locate hl]
  simp only [h.directory_iff.mpr hdirectory]

/-- The files that are left hold what they held. -/
theorem read (hp : tree.read p = .ok content) (hl : tree.reach p ∉ gone) :
    tree'.read p = .ok content := by
  obtain ⟨hlocate, hcontent⟩ := read_eq_ok.mp hp
  rw [FileTree.read, find?, h.locate hlocate]
  simp only [h.node?_of_notMem hl, node?_of_file? hcontent]

end Sheds

theorem Sheds.refl (tree : FileTree) : tree.Sheds [] tree where
  home := rfl
  nodes := by simp
  files := List.forall_mem_nil _

/-- The tree without what some paths lead to. -/
def removeAll (tree : FileTree) (paths : List Path) : FileTree :=
  paths.foldr (fun p tree => tree.remove p) tree

/-- Removing a file takes nothing else away. -/
theorem Sheds.remove {gone : List Location} (h : tree.Sheds gone tree') (htree : tree.WellFormed)
    (hp : tree.read p = .ok content) : tree.Sheds (tree.reach p :: gone) (tree'.remove p) := by
  obtain ⟨hl, hcontent⟩ := read_eq_ok.mp hp
  have hfile : tree.node? (tree.reach p) = some (.file content) := node?_of_file? hcontent
  rw [FileTree.remove, h.locate hl]
  refine ⟨h.home, ?_, List.forall_mem_cons.mpr ⟨⟨content, hfile⟩, h.files⟩⟩
  simp only
  rw [h.nodes, List.filter_filter]
  refine List.filter_congr fun entry hentry => ?_
  have hself : (tree.reach p).isPrefixOf entry.1 = true ↔ entry.1 = tree.reach p := by
    rw [List.isPrefixOf_iff_prefix]
    refine ⟨htree.eq_of_isPrefix_of_file hfile hentry, fun heq => ?_⟩
    rw [heq]
  simp only [List.mem_cons, ← hself, not_or, Bool.not_eq_true, Bool.decide_and,
    Bool.decide_eq_false]

theorem WellFormed.sheds_removeAll (h : tree.WellFormed) {paths : List Path}
    (hpaths : ∀ p ∈ paths, ∃ content, tree.read p = .ok content) :
    tree.Sheds (paths.map tree.reach) (tree.removeAll paths) := by
  induction paths with
  | nil => exact .refl tree
  | cons p rest ih =>
    rw [List.forall_mem_cons] at hpaths
    obtain ⟨content, hp⟩ := hpaths.1
    exact (ih hpaths.2).remove h hp

end FileTree

end ProviderRegistry
