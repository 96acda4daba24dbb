import ProviderRegistry.Proofs.Importing

/-!
# Modules without the imports in their functions

`forgetIn` leaves the imports in functions out of some statements, and with them the
statements that do nothing but fill a body. The classes that a module declares stay, with
their members (`classesIn_forgetIn`), and so does what a name is bound to that no import in
a function binds (`SourceModule.lookup_forgetIn`).
-/

namespace ProviderRegistry

namespace Syntax

/-! ## Forgetting -/

/-- Whether a statement goes when it stands in a function: an import, or one that does
nothing. -/
def Stmt.isForgotten : Stmt → Bool
  | .importNames _ => true
  | .importFrom _ _ _ => true
  | .simple => true
  | _ => false

mutual

/-- A statement without the imports in functions; `inFunction` says whether it stands in a
function itself. -/
def Stmt.forget (inFunction : Bool) : Stmt → Stmt
  | .classDef line name bases decorators body =>
    .classDef line name bases decorators (forgetIn inFunction body)
  | .functionDef name decorators body => .functionDef name decorators (forgetIn true body)
  | .ifElse body orelse => .ifElse (forgetIn inFunction body) (forgetIn inFunction orelse)
  | .tryExcept body handlers orelse final =>
    .tryExcept (forgetIn inFunction body) (forgetInGroups inFunction handlers)
      (forgetIn inFunction orelse) (forgetIn inFunction final)
  | .compound direct grouped after =>
    .compound (forgetIn inFunction direct) (forgetInGroups inFunction grouped)
      (forgetIn inFunction after)
  | s => s

/-- Statements without the imports in functions. -/
def forgetIn (inFunction : Bool) : List Stmt → List Stmt
  | [] => []
  | s :: rest =>
    if inFunction && s.isForgotten then forgetIn inFunction rest
    else s.forget inFunction :: forgetIn inFunction rest

/-- The statements of handlers or cases without the imports in functions. -/
def forgetInGroups (inFunction : Bool) : List (List Stmt) → List (List Stmt)
  | [] => []
  | body :: rest => forgetIn inFunction body :: forgetInGroups inFunction rest

end

/-! ## Levels with places -/

/-- Whether what a block holds stands in a function because of it. -/
def Block.isFunction : Block → Bool
  | .statement (.functionDef _ _ _) => true
  | _ => false

/-- The blocks directly in a block, each with whether it stands in a function. -/
def placedInside (b : Bool × Block) : List (Bool × Block) :=
  b.2.inside.map (b.1 || b.2.isFunction, ·)

/-- The blocks of a level and of the `height` levels below it, each with its place. -/
def placedBelow : (height : Nat) → List (Bool × Block) → List (Bool × Block)
  | 0, level => level
  | height + 1, level => level ++ placedBelow height (level.flatMap placedInside)

/-- What is left of a block in its place. -/
def forget? : Bool × Block → Option Block
  | (inFunction, .statement s) =>
    if inFunction && s.isForgotten then none else some (.statement (s.forget inFunction))
  | (inFunction, .group body) => some (.group (forgetIn inFunction body))

theorem map_snd_placedInside (b : Bool × Block) : (placedInside b).map (·.2) = b.2.inside := by
  rw [placedInside, List.map_map]
  exact List.map_id _

theorem map_snd_placedBelow (height : Nat) (level : List (Bool × Block)) :
    (placedBelow height level).map (·.2) = levelsBelow height (level.map (·.2)) := by
  induction height generalizing level with
  | zero => rfl
  | succ height ih =>
    rw [placedBelow, levelsBelow, List.map_append, ih, List.map_flatMap, List.flatMap_map]
    simp only [map_snd_placedInside]

theorem filterMap_forget?_statement (inFunction : Bool) (body : List Stmt) :
    body.filterMap (fun s => forget? (inFunction, .statement s)) =
      (forgetIn inFunction body).map .statement := by
  induction body with
  | nil => simp [forgetIn]
  | cons s rest ih =>
    rw [List.filterMap_cons, forgetIn, forget?, ih]
    by_cases hforgotten : (inFunction && s.isForgotten) = true
    · rw [if_pos hforgotten, if_pos hforgotten]
    · rw [if_neg hforgotten, if_neg hforgotten, List.map_cons]

theorem filterMap_forget?_group (inFunction : Bool) (groups : List (List Stmt)) :
    groups.filterMap (fun body => forget? (inFunction, .group body)) =
      (forgetInGroups inFunction groups).map .group := by
  induction groups with
  | nil => simp [forgetInGroups]
  | cons body rest ih =>
    rw [List.filterMap_cons, forgetInGroups, forget?, ih]
    rfl

theorem forget?_of_isForgotten {inFunction : Bool} {s : Stmt} (h : s.isForgotten = false) :
    forget? (inFunction, .statement s) = some (.statement (s.forget inFunction)) := by
  rw [forget?, h, Bool.and_false]
  rfl

/-- What is left of a block holds what is left of the blocks in it. -/
theorem inside_forget? (b : Bool × Block) :
    (forget? b).toList.flatMap Block.inside = (placedInside b).filterMap forget? := by
  obtain ⟨inFunction, s | body⟩ := b
  · cases s with
    | importNames names => cases inFunction <;> rfl
    | importFrom module names level => cases inFunction <;> rfl
    | simple => cases inFunction <;> rfl
    | _ =>
      rw [forget?_of_isForgotten rfl]
      simp [Stmt.forget, placedInside, Block.inside, Block.isFunction, Function.comp_def,
        filterMap_forget?_statement, filterMap_forget?_group]
  · rw [forget?]
    simp [placedInside, Block.inside, Block.isFunction, Function.comp_def,
      filterMap_forget?_statement]

/-- The blocks of what is left are what is left of the blocks. -/
theorem levelsBelow_forget? (height : Nat) (level : List (Bool × Block)) :
    levelsBelow height (level.filterMap forget?) =
      (placedBelow height level).filterMap forget? := by
  induction height generalizing level with
  | zero => rfl
  | succ height ih =>
    have hinside : (level.filterMap forget?).flatMap Block.inside =
        (level.flatMap placedInside).filterMap forget? := by
      rw [List.filterMap_eq_flatMap_toList, List.flatMap_assoc, List.filterMap_flatMap]
      exact List.flatMap_congr fun b _ => inside_forget? b
    rw [placedBelow, levelsBelow, List.filterMap_append, hinside, ih]

/-! ### Heights -/

/-- How many levels of blocks a block has, its own included. -/
def Block.height : Block → Nat
  | .statement s => s.height
  | .group body => heightOf body + 1

theorem height_le_heightOf {s : Stmt} {body : List Stmt} (h : s ∈ body) :
    s.height ≤ heightOf body := by
  induction body with
  | nil => cases h
  | cons first rest ih =>
    rw [heightOf]
    rcases List.mem_cons.mp h with rfl | h
    · exact Nat.le_max_left _ _
    · exact (ih h).trans (Nat.le_max_right _ _)

theorem heightOf_lt_heightOfGroups {body : List Stmt} {groups : List (List Stmt)}
    (h : body ∈ groups) : heightOf body < heightOfGroups groups := by
  induction groups with
  | nil => cases h
  | cons first rest ih =>
    rw [heightOfGroups]
    rcases List.mem_cons.mp h with rfl | h
    · exact Nat.le_max_left _ _
    · exact (ih h).trans_le (Nat.le_max_right _ _)

/-- The blocks in a block have fewer levels. -/
theorem height_lt_of_mem_inside {b c : Block} (h : c ∈ b.inside) : c.height < b.height := by
  have hin {body : List Stmt} (hc : c ∈ body.map Block.statement) : c.height ≤ heightOf body := by
    obtain ⟨s, hs, rfl⟩ := List.mem_map.mp hc
    exact height_le_heightOf hs
  have hgroups {groups : List (List Stmt)} (hc : c ∈ groups.map Block.group) :
      c.height ≤ heightOfGroups groups := by
    obtain ⟨body, hbody, rfl⟩ := List.mem_map.mp hc
    exact heightOf_lt_heightOfGroups hbody
  cases b with
  | group body => exact Nat.lt_succ_of_le (hin h)
  | statement s =>
    cases s with
    | classDef line name bases decorators body => exact Nat.lt_succ_of_le (hin h)
    | functionDef name decorators body => exact Nat.lt_succ_of_le (hin h)
    | ifElse body orelse =>
      rw [Block.inside, List.map_append] at h
      have hle := (List.mem_append.mp h).imp hin hin
      change c.height < max (heightOf body) (heightOf orelse) + 1
      omega
    | tryExcept body handlers orelse final =>
      rw [Block.inside, List.map_append, List.mem_append, List.mem_append, List.mem_append] at h
      have hle := h.imp (Or.imp hin hgroups) (Or.imp hin hin)
      change c.height < max (max (heightOf body) (heightOfGroups handlers))
        (max (heightOf orelse) (heightOf final)) + 1
      omega
    | compound direct grouped after =>
      rw [Block.inside, List.mem_append, List.mem_append] at h
      have hle := h.imp (Or.imp hin hgroups) hin
      change c.height < max (heightOf direct) (max (heightOfGroups grouped) (heightOf after)) + 1
      omega
    | _ => cases h

theorem height_pos (b : Block) : 0 < b.height := by
  cases b with
  | group body => exact Nat.succ_pos _
  | statement s => cases s <;> exact Nat.succ_pos _

/-- Below the last level there are no blocks. -/
theorem placedBelow_of_le {height height' : Nat} (hle : height ≤ height')
    {level : List (Bool × Block)} (h : ∀ b ∈ level, b.2.height ≤ height) :
    placedBelow height' level = placedBelow height level := by
  induction height generalizing height' level with
  | zero =>
    obtain rfl : level = [] := List.eq_nil_iff_forall_not_mem.mpr fun b hb =>
      absurd (height_pos b.2) (Nat.not_lt.mpr (h b hb))
    clear h hle
    induction height' with
    | zero => rfl
    | succ height' ih => exact ih
  | succ height ih =>
    cases height' with
    | zero => exact absurd hle (Nat.not_succ_le_zero _)
    | succ height' =>
      rw [placedBelow, placedBelow, ih (Nat.le_of_succ_le_succ hle)]
      intro c hc
      obtain ⟨b, hb, hc⟩ := List.mem_flatMap.mp hc
      have hinside : c.2 ∈ b.2.inside := map_snd_placedInside b ▸ List.mem_map_of_mem hc
      exact Nat.le_of_lt_succ ((height_lt_of_mem_inside hinside).trans_le (h b hb))

/-- All blocks of a module, each with whether it stands in a function. -/
def placedBlocks (statements : List Stmt) : List (Bool × Block) :=
  placedBelow (heightOf statements) (statements.map (false, .statement ·))

theorem breadthFirst_eq_map_snd (statements : List Stmt) :
    breadthFirst statements = (placedBlocks statements).map (·.2) := by
  rw [placedBlocks, map_snd_placedBelow, List.map_map]
  rfl

/-- The blocks of a module without the imports in functions. -/
theorem breadthFirst_forgetIn (statements : List Stmt) :
    breadthFirst (forgetIn false statements) = (placedBlocks statements).filterMap forget? := by
  have hbounded (statements : List Stmt) {height : Nat} (hle : heightOf statements ≤ height) :
      placedBelow height (statements.map (false, .statement ·)) = placedBlocks statements := by
    refine placedBelow_of_le hle fun b hb => ?_
    obtain ⟨s, hs, rfl⟩ := List.mem_map.mp hb
    exact height_le_heightOf hs
  -- Both are as high as the higher of the two.
  have hleft := Nat.le_max_left (heightOf statements) (heightOf (forgetIn false statements))
  have hright := Nat.le_max_right (heightOf statements) (heightOf (forgetIn false statements))
  rw [breadthFirst_eq_map_snd, ← hbounded _ hright, ← hbounded _ hleft, map_snd_placedBelow,
    ← levelsBelow_forget?, List.filterMap_map, List.map_map]
  exact congrArg _ (filterMap_forget?_statement false statements).symm

end Syntax

namespace Symbols

open Syntax

/-! ## Classes -/

/-- A class statement without the imports in functions. -/
def ClassDeclaration.forget (c : ClassDeclaration) : ClassDeclaration :=
  { c with body := forgetIn false c.body }

theorem forgetIn_false_cons (s : Stmt) (rest : List Stmt) :
    forgetIn false (s :: rest) = s.forget false :: forgetIn false rest := by
  rw [forgetIn]
  rfl

mutual

theorem classesOf_forget (enclosing : String) : (s : Stmt) →
    classesOf enclosing (s.forget false) = (classesOf enclosing s).map .forget
  | .classDef line name bases decorators body => by
    rw [Stmt.forget, classesOf, classesOf, List.map_cons, classesIn_forgetIn]
    rfl
  | .ifElse body orelse => by
    rw [Stmt.forget, classesOf, classesOf, List.map_append, classesIn_forgetIn,
      classesIn_forgetIn]
  | .tryExcept body handlers orelse final => by
    rw [Stmt.forget, classesOf, classesOf]
    simp only [List.map_append, classesIn_forgetIn, classesInGroups_forgetInGroups]
  | .functionDef _ _ _ => by simp [Stmt.forget, classesOf]
  | .importNames _ => by simp [Stmt.forget, classesOf]
  | .importFrom _ _ _ => by simp [Stmt.forget, classesOf]
  | .assign _ _ => by simp [Stmt.forget, classesOf]
  | .annotated _ _ => by simp [Stmt.forget, classesOf]
  | .compound _ _ _ => by simp [Stmt.forget, classesOf]
  | .expression _ => by simp [Stmt.forget, classesOf]
  | .simple => by simp [Stmt.forget, classesOf]

/-- **Modules declare the same classes** without the imports in functions. -/
theorem classesIn_forgetIn (enclosing : String) : (body : List Stmt) →
    classesIn enclosing (forgetIn false body) = (classesIn enclosing body).map .forget
  | [] => by simp [forgetIn, classesIn]
  | s :: rest => by
    rw [forgetIn_false_cons, classesIn, classesIn, List.map_append, classesOf_forget,
      classesIn_forgetIn]

theorem classesInGroups_forgetInGroups (enclosing : String) : (groups : List (List Stmt)) →
    classesInGroups enclosing (forgetInGroups false groups) =
      (classesInGroups enclosing groups).map .forget
  | [] => by simp [forgetInGroups, classesInGroups]
  | body :: rest => by
    rw [forgetInGroups, classesInGroups, classesInGroups, List.map_append, classesIn_forgetIn,
      classesInGroups_forgetInGroups]

end

theorem Members.add_forget (members : Members) (s : Stmt) :
    members.add (s.forget false) = members.add s := by
  cases s <;> simp [Stmt.forget, Members.add]

theorem ClassDeclaration.members_forget (c : ClassDeclaration) : c.forget.members = c.members := by
  have hfold (body : List Stmt) (members : Members) :
      (forgetIn false body).foldl Members.add members = body.foldl Members.add members := by
    induction body generalizing members with
    | nil => rw [forgetIn]
    | cons s rest ih =>
      rw [forgetIn_false_cons, List.foldl_cons, List.foldl_cons, ih, Members.add_forget]
  exact hfold c.body {}

/-! ## Imports -/

/-- What the imports in the functions of a module bind. -/
def localImports (package : String) (statements : List Stmt) : List (String × String) :=
  ((placedBlocks statements).filter (·.1)).flatMap fun b => importsOf package b.2

/-- What is left of a block outside of functions imports what the block does, -/
theorem importsOf_forget?_outside (package : String) (block : Block) :
    (forget? (false, block)).toList.flatMap (importsOf package) = importsOf package block := by
  cases block with
  | group body => rfl
  | statement s => cases s <;> exact List.append_nil _

/-- and what is left of one in a function imports nothing. -/
theorem importsOf_forget?_inside (package : String) (block : Block) :
    (forget? (true, block)).toList.flatMap (importsOf package) = [] := by
  cases block with
  | group body => rfl
  | statement s => cases s <;> rfl

/-- **What a name is bound to without the imports in functions**, when none of them binds
it. -/
theorem SourceModule.lookup_forgetIn {name : String} {isPackage : Bool} {statements : List Stmt}
    {head : String}
    (h : head ∉ (localImports (packageOf name isPackage) statements).map (·.1)) (path : Path) :
    (ofStatements name path isPackage (forgetIn false statements)).imports.lookup head =
      (ofStatements name path isPackage statements).imports.lookup head := by
  rw [lookup_imports, lookup_imports, breadthFirst_forgetIn, breadthFirst_eq_map_snd,
    List.filterMap_eq_flatMap_toList, List.flatMap_assoc, List.flatMap_map]
  refine Table.last?_flatMap_congr fun b hb => ?_
  obtain ⟨inFunction, block⟩ := b
  cases inFunction with
  | false => rw [importsOf_forget?_outside]
  | true =>
    -- A block in a function binds other names, and what is left of it binds none.
    have hnone : Table.last? (importsOf (packageOf name isPackage) block) head = none := by
      refine Table.last?_eq_none_iff.mpr fun hmem => h ?_
      obtain ⟨binding, hbinding, rfl⟩ := List.mem_map.mp hmem
      exact List.mem_map_of_mem (List.mem_flatMap.mpr
        ⟨(true, block), List.mem_filter.mpr ⟨hb, rfl⟩, hbinding⟩)
    rw [importsOf_forget?_inside, hnone, Table.last?_nil]

end Symbols

end ProviderRegistry
