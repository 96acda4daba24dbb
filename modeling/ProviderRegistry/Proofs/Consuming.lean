import Mathlib.Data.List.Infix
import ProviderRegistry.Syntax.Statement

/-!
# Rules read from the front

Whatever a rule of the grammar reads, it leaves the end of the tokens that it has been given
(`Parse.Advances`). Each combinator keeps this, which is an instance, and so the instance of a rule
is found from its parts: for expressions (`advances_levelAt`), for patterns
(`advances_patternLevelAt`) and for statements (`advances_blockLevelAt`).
-/

namespace ProviderRegistry.Syntax

-- A rule has an instance for each of its parts, and the count of them doubles with each part.
set_option synthInstance.maxSize 100000000

/-! ## Combinators -/

namespace Parse

variable {α β : Type} {p q : Parse α} {f : α → Parse β}

/-- What a rule leaves is the end of what it has been given. -/
class Advances (p : Parse α) : Prop where
  leaves : ∀ tokens a rest, p tokens = some (a, rest) → rest <:+ tokens

instance Advances.pure (a : α) : Advances (Pure.pure a : Parse α) where
  leaves := by
    intro tokens b rest h
    cases h
    exact List.suffix_refl _

instance Advances.bind [hp : Advances p] [hf : ∀ a, Advances (f a)] : Advances (p >>= f) where
  leaves := by
    intro tokens b rest h
    obtain ⟨⟨a, middle⟩, ha, hb⟩ := Option.bind_eq_some_iff.mp h
    exact ((hf a).leaves middle b rest hb).trans (hp.leaves tokens a middle ha)

theorem Advances.bind_of (hp : Advances p) (hf : ∀ a, Advances (f a)) : Advances (p >>= f) :=
  .bind

/-- A rule reads on in any way from what it has read. -/
theorem Advances.of_forall [hp : Advances p] (hf : ∀ a, Advances (f a)) : Advances (p >>= f) :=
  .bind_of hp hf

theorem Advances.ite_of {c : Prop} [Decidable c] (hp : Advances p) (hq : Advances q) :
    Advances (if c then p else q) := by
  split
  · exact hp
  · exact hq

instance {c : Prop} [Decidable c] [hp : Advances p] [hq : Advances q] :
    Advances (if c then p else q) :=
  .ite_of hp hq

/-- A second reading starts where the first one did. -/
instance Advances.orElse [hp : Advances p] [hq : Advances q] : Advances (p <|> q) where
  leaves := by
    intro tokens a rest h
    have hcases : p tokens = some (a, rest) ∨ q tokens = some (a, rest) := by
      change (p tokens <|> q tokens) = some (a, rest) at h
      cases hfirst : p tokens with
      | none =>
        rw [hfirst] at h
        exact .inr h
      | some read =>
        rw [hfirst] at h
        exact .inl h
    rcases hcases with h | h
    · exact hp.leaves tokens a rest h
    · exact hq.leaves tokens a rest h

instance : Advances (refuse : Parse α) where
  leaves := by
    intro tokens a rest h
    cases h

/-- What looks at the tokens leaves them. -/
theorem Advances.of_looks {look : List Token → α} :
    Advances (fun tokens => some (look tokens, tokens) : Parse α) where
  leaves := by
    intro tokens a rest h
    cases h
    exact List.suffix_refl _

instance : Advances next? := .of_looks

instance : Advances second? := .of_looks

instance : Advances line := .of_looks

instance : Advances skip where
  leaves := by
    intro tokens a rest h
    cases h
    exact List.tail_suffix _

instance (sort : Token.Kind → Bool) : Advances (take? sort) where
  leaves := by
    intro tokens a rest h
    cases tokens with
    | nil =>
      cases h
      exact List.suffix_refl _
    | cons t more =>
      simp only [take?] at h
      split at h <;> cases h
      · exact List.suffix_cons _ _
      · exact List.suffix_refl _

instance (sort : Token.Kind → Bool) : Advances (expect sort) := by
  unfold expect
  infer_instance

instance : Advances name where
  leaves := by
    intro tokens a rest h
    unfold name at h
    split at h <;> cases h
    exact List.suffix_cons _ _

instance (sort : Token.Kind → Bool) : Advances (peek sort) := by
  unfold peek
  infer_instance

instance (symbol : String) : Advances (op? symbol) := by
  unfold op?
  infer_instance

instance (symbol : String) : Advances (op symbol) := by
  unfold op
  infer_instance

instance (word : String) : Advances (keyword? word) := by
  unfold keyword?
  infer_instance

instance (word : String) : Advances (keyword word) := by
  unfold keyword
  infer_instance

theorem Advances.many_of {part : Parse (Option α)} (h : Advances part) (steps : Nat) :
    Advances (Parse.many part steps) := by
  induction steps with
  | zero => exact .pure _
  | succ steps ih =>
    unfold Parse.many
    refine .of_forall fun found => ?_
    cases found with
    | none => exact .pure _
    | some a => infer_instance

instance {part : Parse (Option α)} [h : Advances part] (steps : Nat) :
    Advances (many part steps) :=
  h.many_of steps

instance Advances.commaItems {starts : Token.Kind → Bool} [Advances p] (steps : Nat) :
    Advances (commaItems starts p steps) := by
  induction steps with
  | zero => exact .pure _
  | succ steps ih =>
    unfold Parse.commaItems
    infer_instance

instance Advances.commaList {starts : Token.Kind → Bool} [Advances p] (steps : Nat) :
    Advances (commaList starts p steps) := by
  unfold Parse.commaList
  infer_instance

end Parse

/-! ## Expressions -/

/-- The rules of a level read from the front. -/
class Level.Advances (l : Level) : Prop where
  primary : l.primary.Advances
  arithmetic : l.arithmetic.Advances
  logic : l.logic.Advances
  expression : l.expression.Advances

attribute [instance] Level.Advances.primary Level.Advances.arithmetic Level.Advances.logic
  Level.Advances.expression

namespace Level

open Parse

instance (sort : Token.Kind → Bool) (steps : Nat) : (countOf sort steps).Advances := by
  unfold countOf
  infer_instance

instance : comparison?.Advances := by
  unfold comparison?
  refine .of_forall fun next => ?_
  split
  · infer_instance
  · infer_instance
  · infer_instance
  · refine .of_forall fun second => ?_
    split <;> infer_instance
  · infer_instance

variable {l : Level} [l.Advances]

instance : l.starExpression.Advances := by
  unfold starExpression
  infer_instance

instance : l.starExpressions.Advances := by
  unfold starExpressions
  infer_instance

instance : l.bindable.Advances := by
  unfold bindable
  refine .of_forall fun first => .of_forall fun second => ?_
  split <;> infer_instance

instance : l.namedExpression.Advances := by
  unfold namedExpression
  infer_instance

instance : l.displayItem.Advances := by
  unfold displayItem
  infer_instance

instance : l.yieldTail.Advances := by
  unfold yieldTail
  infer_instance

instance : l.value.Advances := by
  unfold value
  infer_instance

instance : l.target.Advances := by
  unfold target
  infer_instance

instance : l.targets.Advances := by
  unfold targets
  infer_instance

instance : l.conditions.Advances := by
  unfold conditions
  infer_instance

instance : l.clause?.Advances := by
  unfold clause?
  infer_instance

instance : l.clauses.Advances := by
  unfold clauses
  infer_instance

instance : l.parenthesesTail.Advances := by
  unfold parenthesesTail
  infer_instance

instance : l.listTail.Advances := by
  unfold listTail
  infer_instance

instance : l.valueOfKey.Advances := by
  unfold valueOfKey
  infer_instance

instance : l.mappingItem.Advances := by
  unfold mappingItem
  infer_instance

instance : l.mappingTail.Advances := by
  unfold mappingTail
  infer_instance

instance : l.bracesTail.Advances := by
  unfold bracesTail
  infer_instance

instance : l.strings.Advances := by
  unfold strings
  refine .bind_of (.many_of ⟨?_⟩ _) fun pieces => ?_
  · intro tokens piece rest hread
    split at hread <;> cases hread
    · exact List.suffix_cons _ _
    · exact List.suffix_refl _
  · have hjoined : (match joinPieces pieces with
        | some e => return e
        | none => refuse : Parse Expr).Advances := by
      split <;> infer_instance
    exact .ite_of (.of_forall fun _ => hjoined) hjoined

instance : l.atom.Advances := by
  unfold atom
  refine .of_forall fun first => ?_
  split
  · infer_instance
  · infer_instance
  · infer_instance
  · split <;> infer_instance
  · refine .of_forall fun _ => ?_
    split <;> infer_instance
  · infer_instance

instance : l.sliceTail.Advances := by
  unfold sliceTail
  infer_instance

instance : l.subscriptItem.Advances := by
  unfold subscriptItem
  infer_instance

instance : l.subscriptTail.Advances := by
  unfold subscriptTail
  infer_instance

instance (phase : ArgumentPhase) (args : Arguments) : (l.argument phase args).Advances := by
  unfold argument
  refine .of_forall fun mapping => .ite_of inferInstance ?_
  refine .of_forall fun starred => .ite_of inferInstance ?_
  refine .of_forall fun first => .of_forall fun second => ?_
  split <;> infer_instance

instance (steps : Nat) (phase : ArgumentPhase) (args : Arguments) :
    (l.argumentsTail steps phase args).Advances := by
  induction steps generalizing phase args with
  | zero => exact .pure _
  | succ steps ih =>
    unfold argumentsTail
    infer_instance

instance : l.arguments.Advances := by
  unfold arguments
  infer_instance

instance : l.callTail.Advances := by
  unfold callTail
  refine .of_forall fun closed => .ite_of inferInstance ?_
  refine .of_forall fun first => .of_forall fun comprehends => .ite_of ?_ inferInstance
  split <;> infer_instance

instance (steps : Nat) (e : Expr) : (l.attachments steps e).Advances := by
  induction steps generalizing e with
  | zero => exact .pure _
  | succ steps ih =>
    unfold attachments
    infer_instance

instance : l.primaryRule.Advances := by
  unfold primaryRule
  infer_instance

instance : l.operand.Advances := by
  unfold operand
  infer_instance

instance : l.arithmeticRule.Advances := by
  unfold arithmeticRule
  infer_instance

instance : l.comparisonRule.Advances := by
  unfold comparisonRule
  infer_instance

instance : l.logicRule.Advances := by
  unfold logicRule
  infer_instance

instance (allowed stars : Bool) : (l.annotation? allowed stars).Advances := by
  unfold annotation?
  infer_instance

instance (annotated : Bool) (closes : Token.Kind → Bool) (steps : Nat) (s : ParameterState) :
    (l.parameters annotated closes steps s).Advances := by
  induction steps generalizing s with
  | zero => exact inferInstanceAs (Parse.Advances Parse.refuse)
  | succ steps ih =>
    unfold parameters
    infer_instance

instance : l.functionTail.Advances := by
  unfold functionTail
  infer_instance

instance : l.expressionRule.Advances := by
  unfold expressionRule
  infer_instance

end Level

instance advances_levelAt (depth : Nat) : (levelAt depth).Advances := by
  induction depth with
  | zero => constructor <;> exact inferInstanceAs (Parse.Advances Parse.refuse)
  | succ depth ih =>
    exact ⟨inferInstanceAs (levelAt depth).primaryRule.Advances,
      inferInstanceAs (levelAt depth).arithmeticRule.Advances,
      inferInstanceAs (levelAt depth).logicRule.Advances,
      inferInstanceAs (levelAt depth).expressionRule.Advances⟩

/-! ## Patterns -/

/-- The rules for patterns read from the front. -/
class PatternLevel.Advances (p : PatternLevel) : Prop where
  terms : p.terms.Advances
  pattern : p.pattern.Advances

attribute [instance] PatternLevel.Advances.terms PatternLevel.Advances.pattern

namespace PatternLevel

open Parse

instance : number.Advances := by
  unfold number
  refine .of_forall fun first => ?_
  split <;> infer_instance

instance : signedNumber.Advances := by
  unfold signedNumber
  infer_instance

instance : capture.Advances := by
  unfold capture
  infer_instance

instance (steps : Nat) : (dots steps).Advances := by
  unfold dots
  infer_instance

instance : afterStar.Advances := by
  unfold afterStar
  infer_instance

variable {p : PatternLevel} [p.Advances]

instance : p.literal?.Advances := by
  unfold literal?
  refine .of_forall fun first => ?_
  split <;> infer_instance

instance : p.sequenceItem.Advances := by
  unfold sequenceItem
  infer_instance

instance (steps : Nat) (byName : Bool) : (p.classTail steps byName).Advances := by
  induction steps generalizing byName with
  | zero => exact inferInstanceAs (Parse.Advances refuse)
  | succ steps ih =>
    unfold classTail
    refine .of_forall fun closed => .ite_of inferInstance ?_
    refine .of_forall fun first => .of_forall fun second => ?_
    dsimp only
    split <;> infer_instance

instance : p.mappingItem.Advances := by
  unfold mappingItem
  infer_instance

instance (steps : Nat) : (p.mappingTail steps).Advances := by
  induction steps with
  | zero => exact inferInstanceAs (Parse.Advances refuse)
  | succ steps ih =>
    unfold mappingTail
    infer_instance

instance : p.groupTail.Advances := by
  unfold groupTail
  infer_instance

instance : p.bracketsTail.Advances := by
  unfold bracketsTail
  infer_instance

instance : p.namePattern.Advances := by
  unfold namePattern
  infer_instance

instance : p.closed.Advances := by
  unfold closed
  refine .of_forall fun literal => .ite_of inferInstance (.of_forall fun first => ?_)
  split
  · infer_instance
  · refine .of_forall fun _ => ?_
    split <;> infer_instance
  · infer_instance

instance : p.patternRule.Advances := by
  unfold patternRule
  infer_instance

instance : p.patterns.Advances := by
  unfold patterns
  infer_instance

end PatternLevel

instance advances_patternLevelAt {terms : Level} [h : terms.Advances] (depth : Nat) :
    (patternLevelAt terms depth).Advances := by
  induction depth with
  | zero => exact ⟨h, inferInstanceAs (Parse.Advances Parse.refuse)⟩
  | succ depth ih => exact ⟨h, inferInstanceAs (patternLevelAt terms depth).patternRule.Advances⟩

/-! ## Statements -/

/-- The rules for the bodies of statements read from the front. -/
class BlockLevel.Advances (b : BlockLevel) : Prop where
  patterns : b.patterns.Advances
  block : b.block.Advances

attribute [instance] BlockLevel.Advances.patterns BlockLevel.Advances.block

namespace BlockLevel

open Parse

variable {b : BlockLevel}

instance : asName?.Advances := by
  unfold asName?
  infer_instance

instance : nameAlias.Advances := by
  unfold nameAlias
  infer_instance

instance : b.dottedName.Advances := by
  unfold dottedName
  infer_instance

instance : b.moduleAlias.Advances := by
  unfold moduleAlias
  infer_instance

instance : b.levels.Advances := by
  unfold levels
  infer_instance

instance : b.importTail.Advances := by
  unfold importTail
  infer_instance

instance : b.importFromTail.Advances := by
  unfold importFromTail
  infer_instance

instance : b.names.Advances := by
  unfold names
  infer_instance

variable [h : b.Advances]

instance : b.terms.Advances := h.patterns.terms

instance (steps : Nat) (targets : List Expr) (last : Expr) :
    (b.assignmentTail steps targets last).Advances := by
  induction steps generalizing targets last with
  | zero => exact inferInstanceAs (Parse.Advances refuse)
  | succ steps ih =>
    unfold assignmentTail
    infer_instance

instance : b.expressionStatement.Advances := by
  unfold expressionStatement
  infer_instance

instance : b.deletions.Advances := by
  unfold deletions
  infer_instance

instance : b.raised.Advances := by
  unfold raised
  infer_instance

instance : b.asserted.Advances := by
  unfold asserted
  infer_instance

instance : b.returned.Advances := by
  unfold returned
  infer_instance

theorem advances_keywordStatement {word : String} {tail : Parse Stmt}
    (htail : b.keywordStatement word = some tail) : tail.Advances := by
  unfold keywordStatement at htail
  split at htail <;> cases htail <;> infer_instance

instance : b.simpleStatement.Advances := by
  unfold simpleStatement
  refine .of_forall fun first => ?_
  split
  · split
    next tail htail =>
      have hadvances := advances_keywordStatement htail
      infer_instance
    next => infer_instance
  · infer_instance

instance : b.simpleStatements.Advances := by
  unfold simpleStatements
  infer_instance

instance : b.body.Advances := by
  unfold body
  infer_instance

instance (word : String) : (b.bodyAfter word).Advances := by
  unfold bodyAfter
  infer_instance

instance (steps : Nat) : (b.ifTail steps).Advances := by
  induction steps with
  | zero => exact inferInstanceAs (Parse.Advances refuse)
  | succ steps ih =>
    unfold ifTail
    infer_instance

instance : b.whileTail.Advances := by
  unfold whileTail
  infer_instance

instance : b.forTail.Advances := by
  unfold forTail
  infer_instance

instance : b.contextItem.Advances := by
  unfold contextItem
  infer_instance

instance : b.bracketedContexts.Advances := by
  unfold bracketedContexts
  infer_instance

instance : b.plainContexts.Advances := by
  unfold plainContexts
  infer_instance

instance : b.withTail.Advances := by
  unfold withTail
  infer_instance

instance : b.caught.Advances := by
  unfold caught
  infer_instance

instance (isGroup : Bool) : (b.handler? isGroup).Advances := by
  unfold handler?
  infer_instance

instance : b.tryTail.Advances := by
  unfold tryTail
  infer_instance

instance : b.subject.Advances := by
  unfold subject
  infer_instance

instance : b.case?.Advances := by
  unfold case?
  infer_instance

instance : b.matchStatement.Advances := by
  unfold matchStatement
  infer_instance

instance (decorators : List Expr) : (b.classStatement decorators).Advances := by
  unfold classStatement
  infer_instance

instance (decorators : List Expr) : (b.functionTail decorators).Advances := by
  unfold functionTail
  infer_instance

instance : b.decorator?.Advances := by
  unfold decorator?
  infer_instance

instance : b.decorated.Advances := by
  unfold decorated
  infer_instance

instance : b.asyncTail.Advances := by
  unfold asyncTail
  infer_instance

theorem advances_compoundStatement {word : String} {tail : Parse Stmt}
    (htail : b.compoundStatement word = some tail) : tail.Advances := by
  unfold compoundStatement at htail
  split at htail <;> cases htail <;> infer_instance

instance : b.statement.Advances := by
  unfold statement
  refine .of_forall fun first => ?_
  split
  · infer_instance
  · infer_instance
  · split
    next tail htail =>
      have hadvances := advances_compoundStatement htail
      infer_instance
    next => infer_instance
  · infer_instance
  · infer_instance

instance (steps : Nat) : (b.statements steps).Advances := by
  unfold statements
  refine .bind_of (.many_of (.of_forall fun first => ?_) steps) fun groups => .pure _
  split <;> infer_instance

instance : b.blockRule.Advances := by
  unfold blockRule
  infer_instance

end BlockLevel

instance advances_blockLevelAt {patterns : PatternLevel} [h : patterns.Advances] (depth : Nat) :
    (blockLevelAt patterns depth).Advances := by
  induction depth with
  | zero => exact ⟨h, inferInstanceAs (Parse.Advances Parse.refuse)⟩
  | succ depth ih => exact ⟨h, inferInstanceAs (blockLevelAt patterns depth).blockRule.Advances⟩

end ProviderRegistry.Syntax
