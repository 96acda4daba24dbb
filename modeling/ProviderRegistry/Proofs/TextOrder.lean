import ProviderRegistry.Proofs.ClassLines
import ProviderRegistry.Proofs.Declarations

/-!
# Elements in the order of the text

A scan finds each class of a module once if their names are different
(`StaticModel.listed_of_scan`), and in the order in which `classesIn` lists them. That is the
order of the text but for what a try statement does in the end, which is listed before its
handlers: the elements are in the order of the text if and only if no try statement declares
classes both in a handler and behind the handlers (`StaticModel.found_in_text_order_iff`).
-/

namespace ProviderRegistry

/-- Where the class of an element is declared, with its name. -/
def Element.place (e : Element) : String × Option Int := (e.qualname, e.line)

/-! ## Tables that grow -/

namespace Table

variable {κ α β : Type} [BEq κ] [LawfulBEq κ] {table : Table κ α} {key : κ} {value : α}

theorem set_of_notMem (h : key ∉ table.map (·.1)) (value : α) :
    set key value table = table ++ [(key, value)] := by
  induction table with
  | nil => rfl
  | cons entry rest ih =>
    obtain ⟨hne, hrest⟩ := List.ne_and_not_mem_of_not_mem_cons h
    rw [set, if_neg (by simpa using hne.symm), ih hrest, List.cons_append]

/-- Values under new keys that are all different are added one after another. -/
theorem foldl_set_of_new {keyOf : β → κ} {valueOf : β → α} {items : List β}
    (hnodup : (items.map keyOf).Nodup) (hnew : ∀ b ∈ items, keyOf b ∉ table.map (·.1)) :
    items.foldl (fun table b => set (keyOf b) (valueOf b) table) table =
      table ++ items.map fun b => (keyOf b, valueOf b) := by
  induction items generalizing table with
  | nil => simp
  | cons b rest ih =>
    rw [List.map_cons, List.nodup_cons] at hnodup
    rw [List.forall_mem_cons] at hnew
    rw [List.foldl_cons, set_of_notMem hnew.1, ih hnodup.2, List.append_assoc]
    · rfl
    · intro b' hb'
      rw [List.map_append, List.mem_append, not_or]
      refine ⟨hnew.2 b' hb', fun hkey => hnodup.1 ?_⟩
      have hkey : keyOf b' = keyOf b := List.mem_singleton.mp hkey
      exact hkey ▸ List.mem_map_of_mem hb'

/-- A value that is left out, and stands in no place of one that is kept, changes nothing. -/
theorem filter_set_of_ne {keeps : κ × α → Bool} (hvalue : keeps (key, value) = false)
    (h : ∀ entry ∈ table.filter keeps, entry.1 ≠ key) :
    (set key value table).filter keeps = table.filter keeps := by
  induction table with
  | nil => simp [set, hvalue]
  | cons entry rest ih =>
    have hrest : ∀ entry ∈ rest.filter keeps, entry.1 ≠ key := by
      intro entry' hentry'
      rw [List.mem_filter] at hentry'
      exact h entry' (List.mem_filter.mpr ⟨List.mem_cons_of_mem _ hentry'.1, hentry'.2⟩)
    rw [set]
    split
    next heq =>
      have hleft : ¬ keeps entry = true := by
        intro hkept
        exact h entry (List.mem_filter.mpr ⟨List.mem_cons_self, hkept⟩) (beq_iff_eq.mp heq)
      rw [List.filter_cons_of_neg (by simpa using hvalue), List.filter_cons_of_neg hleft]
    next => rw [List.filter_cons, List.filter_cons, ih hrest]

/-- A value can be replaced by one that is related to all that it was related to. -/
theorem Pairs.set_right {R : α → β → Prop} {table' : Table κ β} {b b' : β}
    (h : Pairs R table table') (hlookup : table'.lookup key = some b) (hb : ∀ a, R a b → R a b') :
    Pairs R table (Table.set key b' table') := by
  induction h with
  | nil => cases hlookup
  | @cons entry entry' rest rest' hentry hrest ih =>
    rw [List.lookup_cons] at hlookup
    rw [Table.set]
    by_cases hkey : entry'.1 = key
    · rw [if_pos (beq_iff_eq.mpr hkey)]
      rw [hkey, BEq.rfl] at hlookup
      obtain rfl := Option.some.inj hlookup
      exact .cons ⟨hkey.symm.trans hentry.1, hb _ hentry.2⟩ hrest
    · rw [beq_false_of_ne (Ne.symm hkey)] at hlookup
      rw [if_neg (by simpa using hkey)]
      exact .cons hentry (ih hlookup)

end Table

namespace Symbols

open Syntax

/-! ## Classes of statements -/

mutual

/-- No try statement, where a scan looks for classes, declares some in a handler and some behind
its handlers. -/
def KeepsOrder : Stmt → Prop
  | .classDef _ _ _ _ body => AllKeepOrder body
  | .ifElse body orelse => AllKeepOrder body ∧ AllKeepOrder orelse
  | .tryExcept body handlers orelse final =>
    AllKeepOrder body ∧ GroupsKeepOrder handlers ∧ AllKeepOrder orelse ∧ AllKeepOrder final ∧
      (handlers.flatMap linesIn = [] ∨ linesIn orelse ++ linesIn final = [])
  | _ => True

/-- All statements keep the order of the text. -/
def AllKeepOrder : List Stmt → Prop
  | [] => True
  | s :: rest => KeepsOrder s ∧ AllKeepOrder rest

/-- The statements of all handlers keep the order of the text. -/
def GroupsKeepOrder : List (List Stmt) → Prop
  | [] => True
  | body :: rest => AllKeepOrder body ∧ GroupsKeepOrder rest

end

section

variable {body orelse final : List Stmt} {handlers : List (List Stmt)}

theorem writtenIn_eq_nil (enclosing : String) :
    writtenIn enclosing body = [] ↔ linesIn body = [] := by
  rw [linesIn, ← map_line_writtenIn enclosing "", List.map_eq_nil_iff]

theorem writtenInGroups_eq_nil (enclosing : String) :
    writtenInGroups enclosing handlers = [] ↔ handlers.flatMap linesIn = [] := by
  rw [← map_line_groups, ← map_line_writtenInGroups enclosing "", List.map_eq_nil_iff]

end

mutual

/-- The classes that a scan collects are those that are written. -/
theorem perm_classesOf (enclosing : String) :
    (s : Stmt) → (classesOf enclosing s).Perm (writtenOf enclosing s)
  | .classDef line name bases decorators body => by
    rw [classesOf, writtenOf]
    exact (perm_classesIn _ body).cons _
  | .ifElse body orelse => by
    rw [classesOf, writtenOf]
    exact (perm_classesIn enclosing body).append (perm_classesIn enclosing orelse)
  | .tryExcept body handlers orelse final => by
    have hhandlers := perm_classesInGroups enclosing handlers
    have hends := (perm_classesIn enclosing orelse).append (perm_classesIn enclosing final)
    rw [classesOf, writtenOf]
    simp only [List.append_assoc]
    refine (perm_classesIn enclosing body).append ?_
    rw [← List.append_assoc]
    exact List.perm_append_comm.trans (hhandlers.append hends)
  | .functionDef .. | .importNames _ | .importFrom .. | .assign .. | .annotated .. |
    .compound .. | .expression _ | .simple => .nil

theorem perm_classesIn (enclosing : String) :
    (body : List Stmt) → (classesIn enclosing body).Perm (writtenIn enclosing body)
  | [] => .nil
  | s :: rest => by
    rw [classesIn, writtenIn]
    exact (perm_classesOf enclosing s).append (perm_classesIn enclosing rest)

theorem perm_classesInGroups (enclosing : String) : (groups : List (List Stmt)) →
    (classesInGroups enclosing groups).Perm (writtenInGroups enclosing groups)
  | [] => .nil
  | body :: rest => by
    rw [classesInGroups, writtenInGroups]
    exact (perm_classesIn enclosing body).append (perm_classesInGroups enclosing rest)

end

mutual

theorem KeepsOrder.classesOf_eq (enclosing : String) :
    (s : Stmt) → KeepsOrder s → classesOf enclosing s = writtenOf enclosing s
  | .classDef line name bases decorators body, h => by
    rw [KeepsOrder] at h
    rw [classesOf, writtenOf, AllKeepOrder.classesIn_eq _ body h]
  | .ifElse body orelse, h => by
    rw [KeepsOrder] at h
    rw [classesOf, writtenOf, AllKeepOrder.classesIn_eq _ body h.1,
      AllKeepOrder.classesIn_eq _ orelse h.2]
  | .tryExcept body handlers orelse final, h => by
    rw [KeepsOrder] at h
    obtain ⟨hbody, hhandlers, horelse, hfinal, hempty⟩ := h
    rw [classesOf, writtenOf, AllKeepOrder.classesIn_eq _ body hbody,
      GroupsKeepOrder.classesInGroups_eq _ handlers hhandlers,
      AllKeepOrder.classesIn_eq _ orelse horelse, AllKeepOrder.classesIn_eq _ final hfinal]
    rcases hempty with hnone | hnone
    · rw [(writtenInGroups_eq_nil enclosing).mpr hnone]
      simp
    · obtain ⟨hnone, hnone'⟩ := List.append_eq_nil_iff.mp hnone
      rw [(writtenIn_eq_nil enclosing).mpr hnone, (writtenIn_eq_nil enclosing).mpr hnone']
      simp
  | .functionDef .., _ | .importNames _, _ | .importFrom .., _ | .assign .., _ |
    .annotated .., _ | .compound .., _ | .expression _, _ | .simple, _ => rfl

/-- Classes are collected as they are written where the order is kept. -/
theorem AllKeepOrder.classesIn_eq (enclosing : String) :
    (body : List Stmt) → AllKeepOrder body → classesIn enclosing body = writtenIn enclosing body
  | [], _ => rfl
  | s :: rest, h => by
    rw [AllKeepOrder] at h
    rw [classesIn, writtenIn, KeepsOrder.classesOf_eq enclosing s h.1,
      AllKeepOrder.classesIn_eq enclosing rest h.2]

theorem GroupsKeepOrder.classesInGroups_eq (enclosing : String) : (groups : List (List Stmt)) →
    GroupsKeepOrder groups → classesInGroups enclosing groups = writtenInGroups enclosing groups
  | [], _ => rfl
  | body :: rest, h => by
    rw [GroupsKeepOrder] at h
    rw [classesInGroups, writtenInGroups, AllKeepOrder.classesIn_eq enclosing body h.1,
      GroupsKeepOrder.classesInGroups_eq enclosing rest h.2]

end

/-- Classes on lines further and further down. -/
abbrev GoDown (classes : List ClassDeclaration) : Prop :=
  classes.Pairwise fun c c' => c.line < c'.line

/-- What goes down in both orders of two lists is in one of them. -/
theorem eq_nil_or_eq_nil {ends handlers ends' handlers' : List ClassDeclaration}
    (hends : ends.Perm ends') (hhandlers : handlers.Perm handlers')
    (h : GoDown (ends ++ handlers)) (h' : GoDown (handlers' ++ ends')) :
    handlers' = [] ∨ ends' = [] := by
  by_contra hne
  rw [not_or] at hne
  obtain ⟨c, hc⟩ := List.exists_mem_of_ne_nil _ hne.1
  obtain ⟨c', hc'⟩ := List.exists_mem_of_ne_nil _ hne.2
  have hlt := (List.pairwise_append.mp h).2.2 c' (hends.mem_iff.mpr hc') c
    (hhandlers.mem_iff.mpr hc)
  have hgt := (List.pairwise_append.mp h').2.2 c hc c' hc'
  omega

mutual

theorem keepsOrder_of_goDown (enclosing : String) : (s : Stmt) → GoDown (classesOf enclosing s) →
    GoDown (writtenOf enclosing s) → KeepsOrder s
  | .classDef line name bases decorators body, h, hwritten => by
    rw [classesOf] at h
    rw [writtenOf] at hwritten
    rw [KeepsOrder]
    exact allKeepOrder_of_goDown _ body h.of_cons hwritten.of_cons
  | .ifElse body orelse, h, hwritten => by
    rw [classesOf, GoDown, List.pairwise_append] at h
    rw [writtenOf, GoDown, List.pairwise_append] at hwritten
    rw [KeepsOrder]
    exact ⟨allKeepOrder_of_goDown _ body h.1 hwritten.1,
      allKeepOrder_of_goDown _ orelse h.2.1 hwritten.2.1⟩
  | .tryExcept body handlers orelse final, h, hwritten => by
    rw [classesOf, List.append_assoc, List.append_assoc, GoDown, List.pairwise_append] at h
    rw [writtenOf, List.append_assoc, List.append_assoc, GoDown, List.pairwise_append] at hwritten
    obtain ⟨hbody, htail, -⟩ := h
    obtain ⟨hbody', htail', -⟩ := hwritten
    rw [← List.append_assoc] at htail
    have hboth := List.pairwise_append.mp htail
    have hboth' := List.pairwise_append.mp htail'
    have hends := List.pairwise_append.mp hboth.1
    have hends' := List.pairwise_append.mp hboth'.2.1
    rw [KeepsOrder]
    refine ⟨allKeepOrder_of_goDown _ body hbody hbody',
      groupsKeepOrder_of_goDown _ handlers hboth.2.1 hboth'.1,
      allKeepOrder_of_goDown _ orelse hends.1 hends'.1,
      allKeepOrder_of_goDown _ final hends.2.1 hends'.2.1, ?_⟩
    -- A class of a handler would stand both above and below one that comes in the end.
    have hperm := (perm_classesIn enclosing orelse).append (perm_classesIn enclosing final)
    refine (eq_nil_or_eq_nil hperm (perm_classesInGroups enclosing handlers) htail htail').imp
      (writtenInGroups_eq_nil enclosing).mp fun hnone => ?_
    rw [List.append_eq_nil_iff] at hnone ⊢
    exact hnone.imp (writtenIn_eq_nil enclosing).mp (writtenIn_eq_nil enclosing).mp
  | .functionDef .., _, _ | .importNames _, _, _ | .importFrom .., _, _ | .assign .., _, _ |
    .annotated .., _, _ | .compound .., _, _ | .expression _, _, _ | .simple, _, _ => trivial

/-- Classes that are collected going down, as they are written, keep the order. -/
theorem allKeepOrder_of_goDown (enclosing : String) : (body : List Stmt) →
    GoDown (classesIn enclosing body) → GoDown (writtenIn enclosing body) → AllKeepOrder body
  | [], _, _ => trivial
  | s :: rest, h, hwritten => by
    rw [classesIn, GoDown, List.pairwise_append] at h
    rw [writtenIn, GoDown, List.pairwise_append] at hwritten
    rw [AllKeepOrder]
    exact ⟨keepsOrder_of_goDown enclosing s h.1 hwritten.1,
      allKeepOrder_of_goDown enclosing rest h.2.1 hwritten.2.1⟩

theorem groupsKeepOrder_of_goDown (enclosing : String) : (groups : List (List Stmt)) →
    GoDown (classesInGroups enclosing groups) → GoDown (writtenInGroups enclosing groups) →
    GroupsKeepOrder groups
  | [], _, _ => trivial
  | body :: rest, h, hwritten => by
    rw [classesInGroups, GoDown, List.pairwise_append] at h
    rw [writtenInGroups, GoDown, List.pairwise_append] at hwritten
    rw [GroupsKeepOrder]
    exact ⟨allKeepOrder_of_goDown enclosing body h.1 hwritten.1,
      groupsKeepOrder_of_goDown enclosing rest h.2.1 hwritten.2.1⟩

end

/-- **Which classes are collected in the order of the text.** -/
theorem goDown_classesIn_iff {text : List Char} {statements : List Stmt}
    (h : parseModule? text = some statements) (enclosing : String) :
    GoDown (classesIn enclosing statements) ↔ AllKeepOrder statements := by
  have hwritten : GoDown (writtenIn enclosing statements) := by
    have hlines := sorted_linesIn h
    rwa [linesIn, ← map_line_writtenIn enclosing "", List.pairwise_map] at hlines
  refine ⟨fun hclasses => allKeepOrder_of_goDown enclosing statements hclasses hwritten, ?_⟩
  intro hkeeps
  rwa [AllKeepOrder.classesIn_eq enclosing statements hkeeps]

/-! ## Classes of modules -/

/-- Where a class statement stands, with the name of its class. -/
def ClassDeclaration.place (c : ClassDeclaration) : String × Option Int :=
  (c.qualname, some (c.line : Int))

/-- Lines go down by the places of classes. -/
theorem goDown_iff_place {classes : List ClassDeclaration} :
    GoDown classes ↔ (classes.map (·.place)).Pairwise fun p q => p.2.getD 0 < q.2.getD 0 := by
  rw [List.pairwise_map]
  simp [GoDown, ClassDeclaration.place]

/-- The classes in a module, in the order in which they have been found. -/
def Scope.declaredIn (scope : Scope) (name : String) : List ClassDeclaration :=
  (scope.classes.filter fun entry => entry.2.module.name = name).map (·.2.declaration)

namespace SourceModule

/-- No other module of a scope has a class of the same qualified name. -/
def IsApart (m : SourceModule) (scope : Scope) : Prop :=
  ∀ entry ∈ scope.modules, entry.1 ≠ m.name → ∀ c ∈ m.classes, ∀ c' ∈ entry.2.classes,
    qualify entry.2.name c'.qualname ≠ qualify m.name c.qualname

/-- The classes of a module have names that no other class has. -/
structure HasOwnNames (m : SourceModule) (scope : Scope) : Prop where
  nodup : (m.classes.map (·.qualname)).Nodup
  isApart : m.IsApart scope

end SourceModule

instance (m : SourceModule) (scope : Scope) : Decidable (m.HasOwnNames scope) :=
  decidable_of_iff ((m.classes.map (·.qualname)).Nodup ∧
      ∀ entry ∈ scope.modules, entry.1 ≠ m.name → ∀ c ∈ m.classes, ∀ c' ∈ entry.2.classes,
        qualify entry.2.name c'.qualname ≠ qualify m.name c.qualname)
    ⟨fun h => ⟨h.1, h.2⟩, fun h => ⟨h.nodup, h.isApart⟩⟩

/-- Modules whose classes have names of their own have all of them listed. -/
def Scope.ListsOwn (scope : Scope) : Prop :=
  ∀ entry ∈ scope.modules, entry.2.HasOwnNames scope →
    scope.declaredIn entry.1 = entry.2.classes

namespace StaticModel

variable {model middle scanned : StaticModel} {tree : FileTree} {reports reports' : Reports}
  {m : SourceModule} {name : String}

theorem declaredIn_add_of_ne (h : Grown tree model middle) {entry : String × SourceModule}
    (hentry : entry ∈ middle.scope.modules) (hne : entry.1 ≠ m.name)
    (hapart : entry.2.IsApart (middle.scope.add m)) :
    (middle.scope.add m).declaredIn entry.1 = middle.scope.declaredIn entry.1 := by
  have hname : entry.1 = entry.2.name := h.modules.key entry hentry
  rw [Scope.declaredIn, Scope.declaredIn]
  congr 1
  refine List.foldlRecOn (motive := fun classes : Table String Declared =>
    classes.filter (fun d => d.2.module.name = entry.1) =
      middle.scope.classes.filter fun d => d.2.module.name = entry.1) _ _ rfl
    fun classes hclasses c hc => ?_
  rw [Table.filter_set_of_ne (by simpa using hne.symm), hclasses]
  intro d hd
  rw [hclasses, List.mem_filter, decide_eq_true_eq] at hd
  obtain ⟨hmodule, hdeclaration⟩ := h.declared d hd.1
  have hsame : d.2.module = entry.2 := congrArg Prod.snd
    (List.inj_on_of_nodup_map h.modules.nodup hmodule hentry hd.2)
  rw [hsame] at hdeclaration
  rw [h.classes.key d hd.1, Declared.qualifiedName, hsame]
  exact (hapart (m.name, m) (List.mem_append_right _ (List.mem_singleton.mpr rfl))
    (hname ▸ hne.symm) _ hdeclaration c hc).symm

theorem declaredIn_add_self (h : Grown tree model middle)
    (hnew : middle.scope.modules.has m.name = false)
    (hown : m.HasOwnNames (middle.scope.add m)) :
    (middle.scope.add m).declaredIn m.name = m.classes := by
  have hother : ∀ d ∈ middle.scope.classes, d.2.module.name ≠ m.name := by
    intro d hd heq
    have hmem := List.mem_map_of_mem (f := Prod.fst) (h.declared d hd).module
    rw [heq, ← Table.has_iff, hnew] at hmem
    cases hmem
  have hnodup : (m.classes.map fun c => qualify m.name c.qualname).Nodup := by
    have hmap := hown.nodup.map (f := qualify m.name) fun _ _ => qualify_right_inj.mp
    rwa [List.map_map] at hmap
  have hclasses : (middle.scope.add m).classes =
      middle.scope.classes ++ m.classes.map fun c => (qualify m.name c.qualname, ⟨m, c⟩) := by
    refine Table.foldl_set_of_new hnodup fun c hc hkey => ?_
    obtain ⟨d, hd, hkey⟩ := List.mem_map.mp hkey
    obtain ⟨hmodule, hdeclaration⟩ := h.declared d hd
    rw [h.classes.key d hd] at hkey
    exact hown.isApart (d.2.module.name, d.2.module) (List.mem_append_left _ hmodule)
      (hother d hd) c hc _ hdeclaration hkey
  rw [Scope.declaredIn, hclasses, List.filter_append, List.map_append,
    List.filter_eq_nil_iff.mpr (by simpa using hother), List.filter_eq_self.mpr (by simp)]
  rw [List.map_map]
  exact List.map_id _

/-- Reading one more file keeps the classes listed, and lists those of the new module. -/
theorem listsOwn_withModule (h : Grown tree model middle) (hlists : middle.scope.ListsOwn)
    (hnew : middle.scope.modules.has m.name = false) : (middle.scope.add m).ListsOwn := by
  intro entry hentry hown
  rcases List.mem_append.mp hentry with hentry | hentry
  · have hne : entry.1 ≠ m.name := by
      intro heq
      have hmem := List.mem_map_of_mem (f := Prod.fst) hentry
      rw [heq, ← Table.has_iff, hnew] at hmem
      cases hmem
    rw [declaredIn_add_of_ne h hentry hne hown.isApart]
    refine hlists entry hentry ⟨hown.nodup, fun other hother => ?_⟩
    exact hown.isApart other (List.mem_append_left _ hother)
  · obtain rfl := List.mem_singleton.mp hentry
    exact declaredIn_add_self h hnew hown

/-- **A first scan lists the classes of a module as they are collected.** -/
theorem listsOwn_of_scan (hscope : model.scope = {}) (helements : model.elements = none)
    (h : model.scan tree reports = (scanned, reports', .ok ())) : scanned.scope.ListsOwn := by
  obtain ⟨middle, hroots, rfl⟩ := of_scan_eq_ok helements h
  have hlists : Grown tree model (loadRoots tree model.roots model reports).1 ∧
      (loadRoots tree model.roots model reports).1.scope.ListsOwn := by
    refine loadRoots_induction (P := fun m => Grown tree model m ∧ m.scope.ListsOwn)
      (fun middle root hroot components hcomponents name isPackage statements hreads hmiddle => ?_)
      ⟨.start tree hscope, ?_⟩ reports
    · exact ⟨hmiddle.1.withModule hroot hcomponents hreads,
        listsOwn_withModule hmiddle.1 hmiddle.2 hreads.isNew⟩
    · rw [hscope]
      exact List.forall_mem_nil _
  rw [hroots] at hlists
  exact hlists.2

/-! ## Elements of modules -/

theorem pairs_mark {scope : Scope} {classes : Table String Declared}
    {elements : Table String Element} (h : Table.Pairs (Describes scope) classes elements)
    (name : String) (d : Declared) :
    Table.Pairs (Describes scope) classes (mark scope elements name d) := by
  rw [mark]
  split
  next => exact h
  next hlookup =>
    refine h.set_right hlookup fun d hd => ?_
    exact ⟨hd.module, hd.qualname, hd.isPackage, hd.sourcePath, hd.line, hd.supertypes⟩

/-- Elements describe the classes in their order. -/
theorem pairs_elementsOf (scope : Scope) :
    Table.Pairs (Describes scope) scope.classes (elementsOf scope) := by
  -- The classes from which the elements of a table were made are those before the next one.
  have hbare (classes : Table String Declared) (made : Table String Element × Answers)
      {before : Table String Declared} (hmade : Table.Pairs (Describes scope) before made.1) :
      Table.Pairs (Describes scope) (before ++ classes) (classes.foldl (fun made entry =>
        (made.1 ++ [(entry.1, (bareElement scope entry.1 entry.2 made.2).1)],
          (bareElement scope entry.1 entry.2 made.2).2)) made).1 := by
    induction classes generalizing made before with
    | nil => rwa [List.append_nil]
    | cons entry rest ih =>
      rw [List.append_cons]
      exact ih _ (List.rel_append hmade (.cons ⟨rfl, rfl, rfl, rfl, rfl, rfl, rfl⟩ .nil))
  exact List.foldlRecOn (motive := Table.Pairs (Describes scope) scope.classes) _ _
    (hbare scope.classes ([], {}) .nil) fun _ hpairs _ _ => pairs_mark hpairs _ _

/-- The elements of the classes in a module, in the order in which they are found. -/
def foundIn (model : StaticModel) (name : String) : List Element :=
  (model.found.map (·.2)).filter (·.module = name)

/-- The elements in a module are those of the classes that it lists. -/
theorem map_place_foundIn (helements : model.elements = none)
    (h : model.scan tree reports = (scanned, reports', .ok ())) (name : String) :
    (scanned.foundIn name).map (·.place) =
      (scanned.scope.declaredIn name).map (·.place) := by
  obtain ⟨middle, -, rfl⟩ := of_scan_eq_ok helements h
  have hpairs := pairs_elementsOf middle.scope
  have hkept := List.rel_filter (p := fun d => d.2.module.name = name)
    (q := fun e => e.2.module = name) (fun d e hde => by simp [hde.2.module]) hpairs
  rw [foundIn, Scope.declaredIn, List.filter_map, List.map_map, List.map_map]
  refine List.forall₂_eq_eq_eq ▸ List.forall₂_map_left_iff.mpr (List.forall₂_map_right_iff.mpr ?_)
  exact hkept.flip.imp fun e d hde => Prod.ext hde.2.qualname hde.2.line

/-- What reading a file gives are the statements of a text. -/
theorem exists_parseModule?_of_readModule {path : Path} {encoding : String}
    {statements : List Stmt} (h : readModule tree path encoding = .ok (.ok statements)) :
    ∃ text, parseModule? text = some statements := by
  unfold readModule at h
  split at h
  next => cases h
  next => cases h
  next text _ =>
    split at h
    next => cases h
    next hparse =>
      cases h
      exact ⟨text, hparse⟩

/-- **Where the elements of a module stand.** Each class statement has its element once, and the
elements are in the order of the text if and only if no try statement declares classes both in a
handler and behind its handlers. -/
theorem found_in_text_order_iff (hscope : model.scope = {}) (helements : model.elements = none)
    (h : model.scan tree reports = (scanned, reports', .ok ()))
    (hm : (name, m) ∈ scanned.scope.modules) (hown : m.HasOwnNames scanned.scope) :
    ∃ statements, readModule tree m.path model.encoding = .ok (.ok statements) ∧
      GoDown (writtenIn "" statements) ∧
      ((scanned.foundIn name).map (·.place)).Perm ((writtenIn "" statements).map (·.place)) ∧
      ((scanned.foundIn name).map (·.place) = (writtenIn "" statements).map (·.place) ↔
        AllKeepOrder statements) := by
  have hgrown := grown_of_scan hscope helements h
  obtain ⟨_, _, statements, hread⟩ := hgrown.isRead _ hm
  obtain ⟨text, hparse⟩ := exists_parseModule?_of_readModule hread.read
  have hclasses : m.classes = classesIn "" statements :=
    congrArg SourceModule.classes hread.eq
  have hfound : (scanned.foundIn name).map (·.place) =
      (classesIn "" statements).map (·.place) := by
    rw [map_place_foundIn helements h, listsOwn_of_scan hscope helements h _ hm hown, hclasses]
  have hwritten : GoDown (writtenIn "" statements) := List.pairwise_map.mp (sorted_linesIn hparse)
  refine ⟨statements, hread.read, hwritten, ?_, ?_, ?_⟩
  · rw [hfound]
    exact (perm_classesIn "" statements).map _
  · intro hsame
    rw [hfound] at hsame
    refine (goDown_classesIn_iff hparse "").mp (goDown_iff_place.mpr ?_)
    rw [hsame]
    exact goDown_iff_place.mp hwritten
  · intro hkeeps
    rw [hfound, AllKeepOrder.classesIn_eq "" statements hkeeps]

/-! ### A module alone -/

/-- A source root with one module. -/
def aloneTree (text : String) : FileTree :=
  ⟨[], [(["s"], .directory), (["s", "m.py"], .file (Text.utf8Bytes text.toList))]⟩

def aloneModel : StaticModel where
  roots := [⟨.none, ["s"]⟩]
  ignoreDirs := []
  encoding := "utf-8"

def alonePath : Path := ⟨.none, ["s", "m.py"]⟩

def aloneScan (text : String) : StaticModel × Reports × Except ScanFault Unit :=
  aloneModel.scan (aloneTree text) {}

/-- Where the class statements of the module stand. -/
def alonePlaces (text : String) : List (String × Option Int) :=
  match readModule (aloneTree text) alonePath aloneModel.encoding with
  | .ok (.ok statements) => (writtenIn "" statements).map (·.place)
  | _ => []

/-- The module is read, its classes have names of their own, and it has elements at some
places. -/
def AloneFinds (text : String) (places : List (String × Option Int)) : Prop :=
  (aloneScan text).2.2.isOk = true ∧
    (∀ m ∈ (aloneScan text).1.scope.modules.lookup "m",
      m.HasOwnNames (aloneScan text).1.scope ∧ m.path = alonePath) ∧
    ((aloneScan text).1.scope.modules.lookup "m").isSome = true ∧
    ((aloneScan text).1.foundIn "m").map (·.place) = places

instance (text : String) (places : List (String × Option Int)) :
    Decidable (AloneFinds text places) := inferInstanceAs (Decidable (_ ∧ _))

/-- Classes in a class, in both branches of a condition, in a body and in its handler. -/
def branchesText : String :=
  "class A:\n class B:0\nif 0:\n class C:0\nelse:\n class D:0\n" ++
    "try:\n class E:0\nexcept:\n class F:0\n"

/-- The elements of these classes are in the order of the text. -/
theorem found_in_text_order_branches :
    AloneFinds branchesText [("A", some 1), ("A.B", some 2), ("C", some 4), ("D", some 6),
      ("E", some 8), ("F", some 10)] ∧
    ∃ statements, readModule (aloneTree branchesText) alonePath aloneModel.encoding =
      .ok (.ok statements) ∧ AllKeepOrder statements := by
  have hfinds : AloneFinds branchesText [("A", some 1), ("A.B", some 2), ("C", some 4),
      ("D", some 6), ("E", some 8), ("F", some 10)] := by
    decide +kernel
  have hplaces : alonePlaces branchesText =
      ((aloneScan branchesText).1.foundIn "m").map (·.place) := by
    decide +kernel
  refine ⟨hfinds, ?_⟩
  obtain ⟨hok, hown, hsome, -⟩ := hfinds
  obtain ⟨m, hm⟩ := Option.isSome_iff_exists.mp hsome
  obtain ⟨statements, hread, -, -, hiff⟩ := found_in_text_order_iff rfl rfl (eq_of_isOk hok)
    (Table.mem_of_lookup hm) (hown m hm).1
  rw [(hown m hm).2] at hread
  rw [alonePlaces, hread] at hplaces
  exact ⟨statements, hread, hiff.mp hplaces.symm⟩

/-- A class in a handler, and one in what is done if there is nothing to handle. -/
def handlerText : String := "try:0\nexcept:\n class A:0\nelse:\n class B:0\n"

/-- The element of a class can come after that of one that is written further down. -/
theorem found_before_handler :
    ¬ ∀ (model scanned : StaticModel) (tree : FileTree) (reports reports' : Reports)
      (name : String) (m : SourceModule) (statements : List Stmt),
      model.scope = {} → model.elements = none →
      model.scan tree reports = (scanned, reports', .ok ()) →
      (name, m) ∈ scanned.scope.modules → m.HasOwnNames scanned.scope →
      readModule tree m.path model.encoding = .ok (.ok statements) →
      (scanned.foundIn name).map (·.place) = (writtenIn "" statements).map (·.place) := by
  intro h
  have hfinds : AloneFinds handlerText [("B", some 5), ("A", some 3)] := by decide +kernel
  have hplaces : alonePlaces handlerText = [("A", some 3), ("B", some 5)] := by decide +kernel
  obtain ⟨hok, hown, hsome, hfound⟩ := hfinds
  obtain ⟨m, hm⟩ := Option.isSome_iff_exists.mp hsome
  obtain ⟨hnames, hpath⟩ := hown m hm
  unfold alonePlaces at hplaces
  split at hplaces
  next statements hread =>
    have hsame := h aloneModel (aloneScan handlerText).1 (aloneTree handlerText) {} _ "m" m
      statements rfl rfl (eq_of_isOk hok) (Table.mem_of_lookup hm) hnames (by rw [hpath, hread])
    rw [hfound, hplaces] at hsame
    exact absurd hsame (by decide)
  next => cases hplaces

end StaticModel

end Symbols

end ProviderRegistry
