import ProviderRegistry.Proofs.Declarations

/-!
# What imports bind

The imports of a module bind names one after another, and of two that bind one name the
last one counts (`SourceModule.lookup_imports`). They are taken level by level, so that
all those at the top of the module come before any that stand in a class or a function
(`breadthFirst_eq`).
-/

namespace ProviderRegistry

/-! ## Bindings in a row -/

namespace Table

variable {α : Type}

/-- What a name is bound to after some bindings in a row. -/
def last? (bindings : List (String × α)) (name : String) : Option α :=
  bindings.reverse.lookup name

theorem last?_nil (name : String) : last? ([] : List (String × α)) name = none := rfl

theorem last?_singleton (binding : String × α) (name : String) :
    last? [binding] name = if name = binding.1 then some binding.2 else none := by
  rw [last?, List.reverse_singleton, List.lookup_cons]
  by_cases h : name = binding.1
  · rw [if_pos h, beq_iff_eq.mpr h]
  · rw [if_neg h, beq_false_of_ne h]
    rfl

theorem last?_append (before after : List (String × α)) (name : String) :
    last? (before ++ after) name = (last? after name).or (last? before name) := by
  rw [last?, List.reverse_append, List.lookup_append]
  rfl

theorem last?_cons (binding : String × α) (after : List (String × α)) (name : String) :
    last? (binding :: after) name = (last? after name).or (last? [binding] name) :=
  last?_append [binding] after name

theorem last?_eq_none_iff {bindings : List (String × α)} {name : String} :
    last? bindings name = none ↔ name ∉ bindings.map (·.1) := by
  simp only [last?, List.lookup_eq_none_iff, List.mem_reverse, List.mem_map, bne_iff_ne]
  exact ⟨fun h ⟨p, hp, hname⟩ => h p hp hname.symm, fun h p hp hname => h ⟨p, hp, hname.symm⟩⟩

theorem last?_flatMap_congr {β : Type} {l : List β} {f g : β → List (String × α)} {name : String}
    (h : ∀ b ∈ l, last? (f b) name = last? (g b) name) :
    last? (l.flatMap f) name = last? (l.flatMap g) name := by
  induction l with
  | nil => rfl
  | cons b rest ih =>
    rw [List.forall_mem_cons] at h
    rw [List.flatMap_cons, List.flatMap_cons, last?_append, last?_append, h.1, ih h.2]

/-- Setting names in a row binds each to the last value that it is set to. -/
theorem lookup_foldl_set (bindings : List (String × α)) (table : Table String α) (name : String) :
    (bindings.foldl (fun table b => set b.1 b.2 table) table).lookup name =
      (last? bindings name).or (table.lookup name) := by
  induction bindings generalizing table with
  | nil => rfl
  | cons binding rest ih =>
    rw [List.foldl_cons, ih, last?_cons, Option.or_assoc, last?_singleton]
    by_cases h : name = binding.1
    · rw [if_pos h, h, lookup_set_self]
      rfl
    · rw [if_neg h, lookup_set_of_ne h]
      rfl

end Table

namespace Syntax

/-! ## Levels -/

theorem levelsBelow_eq (height : Nat) (level : List Block) :
    ∃ deeper, levelsBelow height level = level ++ deeper := by
  cases height with
  | zero => exact ⟨[], (List.append_nil level).symm⟩
  | succ height => exact ⟨_, rfl⟩

/-- The blocks inside the statements of a module. -/
def deeperBlocks (statements : List Stmt) : List Block :=
  (breadthFirst statements).drop statements.length

/-- The statements of a module come before those inside them. -/
theorem breadthFirst_eq (statements : List Stmt) :
    breadthFirst statements = statements.map .statement ++ deeperBlocks statements := by
  obtain ⟨deeper, hdeeper⟩ := levelsBelow_eq (heightOf statements) (statements.map .statement)
  have hlength : statements.length = (statements.map Block.statement).length := by simp
  rw [deeperBlocks, breadthFirst, hdeeper, hlength, List.drop_left]

end Syntax

namespace Symbols

open Syntax

/-! ## Imports -/

/-- The names that a block binds by importing, each with what it binds them to. An import
of all names of a module binds none that could be read off it. -/
def importsOf (package : String) : Block → List (String × String)
  | .statement (.importNames names) => names.map fun a =>
      match a.asName with
      | some bound => (bound.text, a.name.text)
      | none => (a.name.first.text, a.name.first.text)
  | .statement (.importFrom module (some names) level) => names.map fun a =>
      ((a.asName.getD a.name).text,
        qualify (SourceModule.importBase package (module.map (·.text)) level) a.name.text)
  | _ => []

namespace SourceModule

theorem addImports_eq (package : String) (imports : Table String String) (b : Block) :
    addImports package imports b =
      (importsOf package b).foldl (fun table b => Table.set b.1 b.2 table) imports := by
  unfold addImports
  split
  next names =>
    rw [importsOf, List.foldl_map]
    congr 1
    funext table a
    cases a.asName with
    | none => rfl
    | some bound => rfl
  next module names level => rw [importsOf, List.foldl_map]
  next hnames hfrom =>
    rw [importsOf]
    · rfl
    · exact hnames
    · exact hfrom

/-- **What imports bind a name to.** The last import of a module that binds it counts. -/
theorem lookup_imports (name : String) (path : Path) (isPackage : Bool) (statements : List Stmt)
    (head : String) :
    (ofStatements name path isPackage statements).imports.lookup head =
      Table.last? ((breadthFirst statements).flatMap (importsOf (packageOf name isPackage)))
        head := by
  have hfold : (ofStatements name path isPackage statements).imports =
      ((breadthFirst statements).flatMap (importsOf (packageOf name isPackage))).foldl
        (fun table b => Table.set b.1 b.2 table) [] := by
    rw [List.foldl_flatMap]
    exact congrArg (fun step => (breadthFirst statements).foldl step [])
      (funext₂ (addImports_eq (packageOf name isPackage)))
  rw [hfold, Table.lookup_foldl_set]
  exact Option.or_none

end SourceModule

end Symbols

end ProviderRegistry
