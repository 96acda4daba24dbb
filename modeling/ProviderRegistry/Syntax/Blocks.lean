import ProviderRegistry.Syntax.Tree

/-!
# Blocks

How statements are nested in statements. A handler and a case are blocks of
their own between a statement and the statements in it, so that what they
hold is one level deeper. `breadthFirst` lists the blocks level by level, each
level from the top of the text to its bottom.
-/

namespace ProviderRegistry.Syntax

/-- A statement, or the body of a handler or a case. -/
inductive Block where
  | statement (s : Stmt)
  | group (body : List Stmt)

/-- The blocks directly in a block. -/
def Block.inside : Block → List Block
  | group body => body.map statement
  | statement (.classDef _ _ _ _ body) => body.map statement
  | statement (.functionDef _ _ body) => body.map statement
  | statement (.ifElse body orelse) => (body ++ orelse).map statement
  | statement (.tryExcept body handlers orelse final) =>
    body.map statement ++ handlers.map group ++ (orelse ++ final).map statement
  | statement (.compound direct grouped after) =>
    direct.map statement ++ grouped.map group ++ after.map statement
  | statement _ => []

mutual

/-- How many levels of blocks a statement has. -/
def Stmt.height : Stmt → Nat
  | .classDef _ _ _ _ body => heightOf body + 1
  | .functionDef _ _ body => heightOf body + 1
  | .ifElse body orelse => max (heightOf body) (heightOf orelse) + 1
  | .tryExcept body handlers orelse final =>
    max (max (heightOf body) (heightOfGroups handlers)) (max (heightOf orelse) (heightOf final)) + 1
  | .compound direct grouped after =>
    max (heightOf direct) (max (heightOfGroups grouped) (heightOf after)) + 1
  | _ => 1

/-- How many levels of blocks statements have. -/
def heightOf : List Stmt → Nat
  | [] => 0
  | s :: rest => max s.height (heightOf rest)

/-- How many levels of blocks groups have, their own included. -/
def heightOfGroups : List (List Stmt) → Nat
  | [] => 0
  | body :: rest => max (heightOf body + 1) (heightOfGroups rest)

end

/-- The blocks of a level and of the `height` levels below it. -/
def levelsBelow : (height : Nat) → List Block → List Block
  | 0, level => level
  | height + 1, level => level ++ levelsBelow height (level.flatMap Block.inside)

/-- All blocks of a module, level by level. -/
def breadthFirst (statements : List Stmt) : List Block :=
  levelsBelow (heightOf statements) (statements.map .statement)

end ProviderRegistry.Syntax
