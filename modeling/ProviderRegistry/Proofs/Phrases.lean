import ProviderRegistry.Proofs.Pieces
import ProviderRegistry.Syntax.Statement

/-!
# Phrases

Tokens that spell an expression, and how the rules read them back. `Spells` is the part of the
grammar that is made up of names, texts and `None` with attributes, subscripts and calls; the rules
read whatever it derives as the expression that it says (`Spells.reads`), provided that what
comes next ends an expression.
-/

namespace ProviderRegistry.Syntax

/-! ## Looking at the next token -/

/-- The next token is of a sort. -/
def Heads (P : Token.Kind → Prop) (tokens : List Token) : Prop := ∃ t ∈ tokens.head?, P t.kind

namespace Parse

variable {α β : Type} {P Q : Token.Kind → Prop} {sort : Token.Kind → Bool} {p : Parse α}
  {f : α → Parse β} {a : α} {tokens rest : List Token}

theorem heads_cons {kind : Token.Kind} (h : P kind) (line : Nat) (rest : List Token) :
    Heads P (⟨kind, line⟩ :: rest) := ⟨_, rfl, h⟩

theorem heads_mono (h : Heads P tokens) (hPQ : ∀ kind, P kind → Q kind) : Heads Q tokens := by
  obtain ⟨t, ht, hP⟩ := h
  exact ⟨t, ht, hPQ _ hP⟩

/-- A rule goes on with what the first part of it has left. -/
theorem bind_of (h : p tokens = some (a, rest)) : (p >>= f) tokens = f a rest := by
  change (p tokens).bind _ = _
  rw [h]
  rfl

theorem take?_of_not (h : Heads (sort · = false) tokens) :
    take? sort tokens = some (false, tokens) := by
  obtain ⟨t, ht, hsort⟩ := h
  obtain ⟨more, rfl⟩ := List.head?_eq_some_iff.mp ht
  rw [take?, if_neg (by rw [hsort]; exact Bool.false_ne_true)]

theorem peek_of {b : Bool} (h : Heads (sort · = b) tokens) :
    peek sort tokens = some (b, tokens) := by
  obtain ⟨t, ht, hsort⟩ := h
  obtain ⟨more, rfl⟩ := List.head?_eq_some_iff.mp ht
  rw [← hsort]
  rfl

theorem exists_cons_of_not_isOp {symbol : String} (h : Heads (·.isOp symbol = false) tokens) :
    ∃ t rest, tokens = t :: rest ∧ t.kind ≠ .op symbol := by
  obtain ⟨t, ht, hsymbol⟩ := h
  obtain ⟨rest, rfl⟩ := List.head?_eq_some_iff.mp ht
  refine ⟨t, rest, rfl, fun heq => ?_⟩
  rw [heq, Token.Kind.isOp, beq_self_eq_true] at hsymbol
  cases hsymbol

/-- What is not there is not read any number of times. -/
theorem many_none {part : Parse (Option α)} (h : part tokens = some (none, tokens)) (steps : Nat) :
    many part steps tokens = some ([], tokens) := by
  cases steps with
  | zero => rfl
  | succ steps =>
    rw [many, bind_of h]
    rfl

theorem many_cons {part : Parse (Option α)} {middle : List Token} {more : List α} {steps : Nat}
    (h : part tokens = some (some a, middle)) (hmore : many part steps middle = some (more, rest)) :
    many part (steps + 1) tokens = some (a :: more, rest) := by
  rw [many, bind_of h]
  dsimp only
  rw [bind_of hmore]
  rfl

theorem many_one {part : Parse (Option α)} (h : part tokens = some (some a, rest))
    (hrest : part rest = some (none, rest)) (steps : Nat) :
    many part (steps + 1) tokens = some ([a], rest) :=
  many_cons h (many_none hrest steps)

/-- One item without a comma behind it. -/
theorem commaList_one (starts : Token.Kind → Bool) (h : p tokens = some (a, rest))
    (hrest : Heads (·.isOp "," = false) rest) (steps : Nat) :
    commaList starts p steps tokens = some (([a], false), rest) := by
  have hitems : commaItems starts p steps rest = some (([], false), rest) := by
    cases steps with
    | zero => rfl
    | succ steps =>
      rw [commaItems, bind_of (p := op? ",") (take?_of_not hrest)]
      rfl
  rw [commaList, bind_of h, bind_of hitems]
  rfl

end Parse

/-! ## Where expressions start and end -/

/-- What a spelled expression starts with. -/
inductive Starts : Token.Kind → Prop where
  | name (id : Identifier) : Starts (.name id)
  | none : Starts (.keyword "None")
  | text (s : List Char) : Starts (.string (.text s))

/-- What is attached to an expression starts with one of these. -/
def attaching : List Token.Kind := [.op ".", .op "[", .op "("]

/-- The tokens after which no part of an expression can follow. -/
def closers : List Token.Kind := [.op ",", .op ")", .op "]", .op ":", .op "=", .newline]

namespace Level

open Parse

variable {l : Level} {e : Expr} {tokens rest : List Token}

theorem attachments_of_closed (hrest : Heads (· ∈ closers) rest) (steps : Nat) (e : Expr) :
    l.attachments steps e rest = some (e, rest) := by
  cases steps with
  | zero => rfl
  | succ steps =>
    have hnone (symbol : String) (h : ∀ kind ∈ closers, kind.isOp symbol = false) :
        op? symbol rest = some (false, rest) := take?_of_not (heads_mono hrest h)
    rw [attachments, bind_of (hnone "." (by decide)), if_neg Bool.false_ne_true,
      bind_of (hnone "(" (by decide)), if_neg Bool.false_ne_true,
      bind_of (hnone "[" (by decide)), if_neg Bool.false_ne_true]
    rfl

section

variable (hstart : Heads Starts tokens) (hrest : Heads (· ∈ closers) rest)

include hstart

/-- No operator stands in front of an expression that is spelled. -/
theorem take?_of_starts {sort : Token.Kind → Bool}
    (h : ∀ kind, Starts kind → sort kind = false) : take? sort tokens = some (false, tokens) :=
  take?_of_not (heads_mono hstart h)

theorem countOf_of_starts {sort : Token.Kind → Bool}
    (h : ∀ kind, Starts kind → sort kind = false) (steps : Nat) :
    countOf sort steps tokens = some (0, tokens) := by
  have hpart : (do if ← take? sort then return some () else return none : Parse (Option Unit))
      tokens = some (none, tokens) := by
    rw [bind_of (take?_of_starts hstart h)]
    rfl
  rw [countOf, bind_of (many_none hpart steps)]
  rfl

theorem operand_of_primaryRule (h : l.primaryRule tokens = some (e, rest)) :
    l.operand tokens = some (e, rest) := by
  rw [operand, bind_of (countOf_of_starts hstart (by rintro _ ⟨⟩ <;> rfl) _),
    bind_of (p := keyword? "await") (take?_of_starts hstart (by rintro _ ⟨⟩ <;> rfl)), bind_of h]
  rfl

include hrest

theorem arithmeticRule_of_primaryRule (h : l.primaryRule tokens = some (e, rest)) :
    l.arithmeticRule tokens = some (e, rest) := by
  rw [arithmeticRule, bind_of (operand_of_primaryRule hstart h), bind_of (many_none ?_ _)]
  · rfl
  · rw [bind_of (take?_of_not (heads_mono hrest (by decide)))]
    rfl

omit hstart in
theorem comparison?_of_closed : comparison? rest = some (false, rest) := by
  obtain ⟨⟨kind, line⟩, hhead, hkind⟩ := hrest
  obtain ⟨more, rfl⟩ := List.head?_eq_some_iff.mp hhead
  simp only [closers, List.mem_cons, List.not_mem_nil, or_false] at hkind
  rcases hkind with rfl | rfl | rfl | rfl | rfl | rfl <;> rfl

theorem comparisonRule_of_primaryRule (h : l.primaryRule tokens = some (e, rest)) :
    l.comparisonRule tokens = some (e, rest) := by
  rw [comparisonRule, bind_of (countOf_of_starts hstart (by rintro _ ⟨⟩ <;> rfl) _),
    bind_of (arithmeticRule_of_primaryRule hstart hrest h), bind_of (many_none ?_ _)]
  · rfl
  · rw [bind_of (comparison?_of_closed hrest)]
    rfl

theorem logicRule_of_primaryRule (h : l.primaryRule tokens = some (e, rest)) :
    l.logicRule tokens = some (e, rest) := by
  rw [logicRule, bind_of (comparisonRule_of_primaryRule hstart hrest h), bind_of (many_none ?_ _)]
  · rfl
  · rw [bind_of (take?_of_not (heads_mono hrest (by decide)))]
    rfl

/-- Where only a primary expression stands, all rules for expressions read it. -/
theorem expressionRule_of_primaryRule (h : l.primaryRule tokens = some (e, rest)) :
    l.expressionRule tokens = some (e, rest) := by
  rw [expressionRule, bind_of (p := keyword? "lambda")
      (take?_of_starts hstart (by rintro _ ⟨⟩ <;> rfl)), if_neg Bool.false_ne_true,
    bind_of (logicRule_of_primaryRule hstart hrest h),
    bind_of (p := keyword? "if") (take?_of_not (heads_mono hrest (by decide)))]
  rfl

end

/-- An expression that is bound to no name. -/
theorem bindable_of_expression {t : Token} {more : List Token}
    (hmore : Heads (·.isOp ":=" = false) more) (h : l.expression (t :: more) = some (e, rest))
    (hrest : Heads (· ∈ closers) rest) : l.bindable (t :: more) = some ((e, false), rest) := by
  obtain ⟨t', more, rfl, hother⟩ := exists_cons_of_not_isOp hmore
  rw [bindable, bind_of (p := next?) rfl, bind_of (p := second?) rfl]
  simp only [List.head?_cons, List.getElem?_cons_succ, List.getElem?_cons_zero, Option.map_some,
    Option.some.injEq, hother, false_implies, implies_true]
  rw [bind_of h, bind_of (peek_of (b := false) (heads_mono hrest (by decide)))]
  rfl

end Level

/-! ## Expressions that are spelled -/

/-- Phrases with commas between them. -/
def withCommas : List (List Token.Kind) → List Token.Kind
  | [] => []
  | first :: more => first ++ more.flatMap (.op "," :: ·)

/-- A named argument. -/
def namedArgument (argument : Identifier × List Token.Kind × Expr) : List Token.Kind :=
  .name argument.1 :: .op "=" :: argument.2.1

/-- Which tokens spell an expression, as far as it is made up of names, texts and `None`. -/
inductive Spells : List Token.Kind → Expr → Prop where
  | name (id : Identifier) : Spells [.name id] (.name id)
  | none : Spells [.keyword "None"] (.constant .none)
  | text (s : List Char) : Spells [.string (.text s)] (.constant (.str (String.ofList s)))
  | member {ks : List Token.Kind} {e : Expr} (h : Spells ks e) (id : Identifier) :
    Spells (ks ++ [.op ".", .name id]) (.member e id)
  | subscript {ks js : List Token.Kind} {e index : Expr} (h : Spells ks e)
    (hindex : Spells js index) : Spells (ks ++ .op "[" :: (js ++ [.op "]"])) (.subscript e)
  | call (args : List (List Token.Kind × Expr)) (named : List (Identifier × List Token.Kind × Expr))
    {ks : List Token.Kind} {e : Expr} (h : Spells ks e)
    (hargs : ∀ a ∈ args, Spells a.1 a.2) (hnamed : ∀ a ∈ named, Spells a.2.1 a.2.2) :
    Spells (ks ++ .op "(" :: (withCommas (args.map (·.1) ++ named.map namedArgument) ++ [.op ")"]))
      (.call e (args.map (·.2)) (named.map fun a => (some a.1.text, a.2.2)))

@[simp] theorem onLine_nil (line : Nat) : onLine line [] = [] := rfl

@[simp] theorem onLine_append (line : Nat) (ks js : List Token.Kind) :
    onLine line (ks ++ js) = onLine line ks ++ onLine line js := List.map_append

@[simp] theorem onLine_cons (line : Nat) (kind : Token.Kind) (ks : List Token.Kind) :
    onLine line (kind :: ks) = ⟨kind, line⟩ :: onLine line ks := rfl

namespace Spells

open Parse

variable {ks : List Token.Kind} {e : Expr} {rest : List Token} {line : Nat}

/-- A spelled expression starts with a word or a text, and what follows that is attached to it. -/
theorem exists_cons (h : Spells ks e) :
    ∃ kind tail, ks = kind :: tail ∧ Starts kind ∧ ∀ k ∈ tail.head?, k ∈ attaching := by
  have hmore {ks : List Token.Kind} {kind : Token.Kind} (hkind : kind ∈ attaching)
      (more : List Token.Kind)
      (h : ∃ first tail, ks = first :: tail ∧ Starts first ∧ ∀ k ∈ tail.head?, k ∈ attaching) :
      ∃ first tail, ks ++ kind :: more = first :: tail ∧ Starts first ∧
        ∀ k ∈ tail.head?, k ∈ attaching := by
    obtain ⟨first, tail, rfl, hstart, htail⟩ := h
    refine ⟨first, tail ++ kind :: more, rfl, hstart, ?_⟩
    cases tail with
    | nil =>
      rintro k ⟨⟩
      exact hkind
    | cons k tail => exact htail
  induction h with
  | name id => exact ⟨_, [], rfl, .name id, fun k hk => nomatch hk⟩
  | none => exact ⟨_, [], rfl, .none, fun k hk => nomatch hk⟩
  | text s => exact ⟨_, [], rfl, .text s, fun k hk => nomatch hk⟩
  | member _ id ih => exact hmore (by simp [attaching]) _ ih
  | subscript _ _ ih _ => exact hmore (by simp [attaching]) _ ih
  | call _ _ _ _ _ ih _ _ => exact hmore (by simp [attaching]) _ ih

/-- The first two tokens of a spelled expression in front of other tokens. -/
theorem exists_tokens {P : Token.Kind → Prop} (h : Spells ks e) (hattaching : ∀ k ∈ attaching, P k)
    (hrest : Heads P rest) (line : Nat) :
    ∃ kind more, onLine line ks ++ rest = ⟨kind, line⟩ :: more ∧ Starts kind ∧ Heads P more := by
  obtain ⟨kind, tail, rfl, hstart, htail⟩ := h.exists_cons
  refine ⟨kind, onLine line tail ++ rest, rfl, hstart, ?_⟩
  cases tail with
  | nil => exact hrest
  | cons k tail => exact heads_cons (hattaching k (htail k rfl)) line _

theorem heads_starts (h : Spells ks e) (line : Nat) (rest : List Token) :
    Heads Starts (onLine line ks ++ rest) := by
  obtain ⟨kind, tail, rfl, hstart, -⟩ := h.exists_cons
  exact heads_cons hstart line _

end Spells

namespace Level

open Parse

variable {l : Level} {ks : List Token.Kind} {e : Expr} {rest : List Token}
  {args : List (List Token.Kind × Expr)} {named : List (Identifier × List Token.Kind × Expr)}

/-- The rules up to a depth read tokens as an expression. -/
def Reads (l : Level) (ks : List Token.Kind) (e : Expr) : Prop :=
  ∀ line rest, Heads (· ∈ closers) rest → l.expression (onLine line ks ++ rest) = some (e, rest)

theorem Reads.bindable (hread : l.Reads ks e) (h : Spells ks e) (line : Nat) (rest : List Token)
    (hrest : Heads (· ∈ closers) rest) :
    l.bindable (onLine line ks ++ rest) = some ((e, false), rest) := by
  obtain ⟨kind, more, heq, -, hmore⟩ := h.exists_tokens (P := (·.isOp ":=" = false)) (by decide)
    (heads_mono hrest (by decide)) line
  have hexpression := hread line rest hrest
  rw [heq] at hexpression ⊢
  exact bindable_of_expression hmore hexpression hrest

theorem Reads.namedExpression (hread : l.Reads ks e) (h : Spells ks e) (line : Nat)
    (rest : List Token) (hrest : Heads (· ∈ closers) rest) :
    l.namedExpression (onLine line ks ++ rest) = some (e, rest) := by
  rw [Level.namedExpression, bind_of (hread.bindable h line rest hrest)]
  rfl

/-- What stands in the brackets of a subscript. -/
theorem Reads.subscriptTail (hread : l.Reads ks e) (h : Spells ks e) (line : Nat)
    (rest : List Token) :
    l.subscriptTail (onLine line ks ++ ⟨.op "]", line⟩ :: rest) = some ((), rest) := by
  have hclosed : Heads (· ∈ closers) (⟨.op "]", line⟩ :: rest) :=
    heads_cons (by simp [closers]) line rest
  have hstart := h.heads_starts line (⟨.op "]", line⟩ :: rest)
  have hitem : l.subscriptItem (onLine line ks ++ ⟨.op "]", line⟩ :: rest) =
      some (false, ⟨.op "]", line⟩ :: rest) := by
    rw [subscriptItem, bind_of (p := op? "*") (take?_of_starts hstart (by rintro _ ⟨⟩ <;> rfl)),
      if_neg Bool.false_ne_true,
      bind_of (peek_of (b := false) (heads_mono hstart (by rintro _ ⟨⟩ <;> rfl))),
      if_neg Bool.false_ne_true, bind_of (hread.bindable h line _ hclosed)]
    rfl
  have hcomma : Heads (·.isOp "," = false) (⟨.op "]", line⟩ :: rest) := ⟨_, rfl, rfl⟩
  rw [Level.subscriptTail, bind_of (commaList_one _ hitem hcomma _)]
  rfl

/-! ## Arguments -/

/-- After an argument there is another one, or the list ends. -/
def separators : List Token.Kind := [.op ",", .op ")"]

theorem heads_closers_of_separators (hrest : Heads (· ∈ separators) rest) :
    Heads (· ∈ closers) rest :=
  heads_mono hrest fun kind h => by
    simp only [separators, List.mem_cons, List.not_mem_nil, or_false] at h
    rcases h with rfl | rfl <;> simp [closers]

theorem Reads.argument (hread : l.Reads ks e) (h : Spells ks e)
    (hrest : Heads (· ∈ separators) rest) (line : Nat) (all : Arguments) :
    l.argument .any all (onLine line ks ++ rest) =
      some ((.any, { all with positional := all.positional ++ [e] }), rest) := by
  have hstart := h.heads_starts line rest
  have hnamed := hread.namedExpression h line rest (heads_closers_of_separators hrest)
  obtain ⟨kind, more, heq, hkind, hmore⟩ := h.exists_tokens (P := (·.isOp "=" = false)) (by decide)
    (heads_mono hrest (by decide)) line
  obtain ⟨t', more, rfl, hother⟩ := exists_cons_of_not_isOp hmore
  rw [heq] at hstart hnamed ⊢
  rw [Level.argument, bind_of (p := op? "**") (take?_of_starts hstart (by rintro _ ⟨⟩ <;> rfl)),
    if_neg Bool.false_ne_true,
    bind_of (peek_of (b := false) (heads_mono hstart (by rintro _ ⟨⟩ <;> rfl))),
    if_neg Bool.false_ne_true, bind_of (p := next?) rfl, bind_of (p := second?) rfl]
  simp only [List.head?_cons, List.getElem?_cons_succ, List.getElem?_cons_zero, Option.map_some,
    Option.some.injEq, hother, false_implies, implies_true]
  rw [if_neg (by decide), bind_of hnamed,
    bind_of (peek_of (b := false) (heads_mono hrest (by decide)))]
  rfl

theorem Reads.namedArgument (hread : l.Reads ks e) (hrest : Heads (· ∈ separators) rest)
    (line : Nat) (id : Identifier) {phase : ArgumentPhase} (hphase : phase ≠ .noStarred)
    (all : Arguments) :
    l.argument phase all (onLine line (Syntax.namedArgument (id, ks, e)) ++ rest) =
      some ((.noPlain, { all with named := all.named ++ [(some id.text, e)] }), rest) := by
  have hexpression := hread line rest (heads_closers_of_separators hrest)
  rw [Level.argument, Syntax.namedArgument, onLine_cons, onLine_cons, List.cons_append,
    List.cons_append, bind_of (p := op? "**") rfl, if_neg Bool.false_ne_true,
    bind_of (p := peek _) (a := false) rfl, if_neg Bool.false_ne_true, bind_of (p := next?) rfl,
    bind_of (p := second?) rfl]
  simp only [List.head?_cons, List.getElem?_cons_succ, List.getElem?_cons_zero, Option.map_some]
  rw [bind_of (p := skip) rfl, List.tail_cons, bind_of (p := skip) rfl, List.tail_cons,
    bind_of hexpression]
  cases phase <;> first | rfl | exact absurd rfl hphase

theorem heads_separators (line : Nat) (items : List (List Token.Kind))
    (hrest : Heads (· ∈ separators) rest) :
    Heads (· ∈ separators) (onLine line (items.flatMap (.op "," :: ·)) ++ rest) := by
  cases items with
  | nil => exact hrest
  | cons item items => exact heads_cons (by simp [separators]) line _

/-- Named arguments are read up to the end of the list. -/
theorem argumentsTail_named (hread : ∀ a ∈ named, l.Reads a.2.1 a.2.2) (line : Nat)
    (rest : List Token) (steps : Nat) (hsteps : named.length ≤ steps) {phase : ArgumentPhase}
    (hphase : phase ≠ .noStarred) (all : Arguments) :
    l.argumentsTail steps phase all (onLine line ((named.map namedArgument).flatMap
        (.op "," :: ·)) ++ ⟨.op ")", line⟩ :: rest) =
      some ({ all with named := all.named ++ named.map fun a => (some a.1.text, a.2.2) },
        ⟨.op ")", line⟩ :: rest) := by
  induction named generalizing steps phase all with
  | nil =>
    rw [List.map_nil, List.map_nil, List.append_nil]
    cases steps with
    | zero => rfl
    | succ steps => rfl
  | cons a named ih =>
    obtain ⟨ha, hnamed⟩ := List.forall_mem_cons.mp hread
    obtain ⟨steps, rfl⟩ : ∃ n, steps = n + 1 := Nat.exists_eq_succ_of_ne_zero (by
      rw [List.length_cons] at hsteps; omega)
    have hclosed : Heads (· ∈ separators) (⟨.op ")", line⟩ :: rest) :=
      heads_cons (by simp [separators]) line rest
    have hnext := heads_separators line (named.map namedArgument) hclosed
    have hargument := ha.namedArgument hnext line a.1 hphase all
    rw [List.map_cons, List.flatMap_cons, List.cons_append, onLine_cons, onLine_append,
      List.cons_append, List.append_assoc, argumentsTail, bind_of (p := op? ",") rfl, if_pos rfl,
      bind_of (p := peek _) (a := true) rfl, if_pos rfl, bind_of hargument]
    dsimp only
    rw [ih hnamed steps (Nat.le_of_succ_le_succ hsteps) (by decide)]
    simp

/-- Positional arguments are read, and then the arguments behind them. -/
theorem argumentsTail_positional (hread : ∀ a ∈ args, l.Reads a.1 a.2)
    (hspells : ∀ a ∈ args, Spells a.1 a.2) (hrest : Heads (· ∈ separators) rest) (line : Nat)
    (steps : Nat) (all : Arguments) :
    l.argumentsTail (args.length + steps) .any all
        (onLine line ((args.map (·.1)).flatMap (.op "," :: ·)) ++ rest) =
      l.argumentsTail steps .any { all with positional := all.positional ++ args.map (·.2) }
        rest := by
  induction args generalizing all with
  | nil => simp [onLine]
  | cons a args ih =>
    obtain ⟨ha, hmore⟩ := List.forall_mem_cons.mp hread
    obtain ⟨hspellsa, hspells⟩ := List.forall_mem_cons.mp hspells
    have hargument := ha.argument hspellsa (heads_separators line (args.map (·.1)) hrest) line all
    have hstart := hspellsa.heads_starts line
      (onLine line ((args.map (·.1)).flatMap (.op "," :: ·)) ++ rest)
    rw [List.length_cons, Nat.add_right_comm, List.map_cons, List.flatMap_cons, List.cons_append,
      onLine_cons, onLine_append, List.cons_append, List.append_assoc, argumentsTail,
      bind_of (p := op? ",") rfl, if_pos rfl,
      bind_of (peek_of (b := true) (heads_mono hstart (by rintro _ ⟨⟩ <;> rfl))), if_pos rfl,
      bind_of hargument]
    dsimp only
    rw [ih hmore hspells]
    simp

theorem callTail_of_argument {tokens rest' : List Token} {line : Nat} {phase : ArgumentPhase}
    {all all' : Arguments} (hfirst : Heads (·.isOp ")" = false) tokens)
    (hargument : l.argument .any {} tokens = some ((phase, all), rest))
    (hrest : Heads (· ∈ separators) rest)
    (htail : l.argumentsTail l.steps phase all rest = some (all', ⟨.op ")", line⟩ :: rest')) :
    l.callTail tokens = some (all', rest') := by
  rw [callTail, bind_of (p := op? ")") (take?_of_not hfirst), if_neg Bool.false_ne_true,
    bind_of hargument]
  dsimp only
  rw [bind_of (peek_of (b := false) (heads_mono hrest (by decide))), if_neg Bool.false_ne_true,
    bind_of htail]
  rfl

/-- The arguments of a call are read as a whole. -/
theorem callTail_of_reads (hargs : ∀ a ∈ args, l.Reads a.1 a.2)
    (hspells : ∀ a ∈ args, Spells a.1 a.2) (hnamed : ∀ a ∈ named, l.Reads a.2.1 a.2.2)
    (hsteps : args.length + named.length ≤ l.steps + 1) (line : Nat) (rest : List Token) :
    l.callTail (onLine line (withCommas (args.map (·.1) ++ named.map namedArgument)) ++
        ⟨.op ")", line⟩ :: rest) =
      some (⟨args.map (·.2), named.map fun a => (some a.1.text, a.2.2)⟩, rest) := by
  have hclosed : Heads (· ∈ separators) (⟨.op ")", line⟩ :: rest) :=
    heads_cons (by simp [separators]) line rest
  cases args with
  | nil =>
    cases named with
    | nil => rfl
    | cons a named =>
      obtain ⟨ha, hnamed⟩ := List.forall_mem_cons.mp hnamed
      have hrest := heads_separators line (named.map namedArgument) hclosed
      have htail := argumentsTail_named hnamed line rest l.steps (by simpa using hsteps)
        (by decide : ArgumentPhase.noPlain ≠ .noStarred) ⟨[], [(some a.1.text, a.2.2)]⟩
      rw [List.map_nil, List.nil_append, List.map_cons, withCommas, onLine_append,
        List.append_assoc]
      exact callTail_of_argument (heads_cons (P := (·.isOp ")" = false)) rfl line _)
        (ha.namedArgument hrest line a.1 (by decide) {}) hrest htail
  | cons a args =>
    obtain ⟨ha, hargs⟩ := List.forall_mem_cons.mp hargs
    obtain ⟨hspellsa, hspells⟩ := List.forall_mem_cons.mp hspells
    rw [List.length_cons, Nat.add_right_comm, Nat.add_le_add_iff_right] at hsteps
    obtain ⟨steps, hsteps, hnamedsteps⟩ :
        ∃ steps, l.steps = args.length + steps ∧ named.length ≤ steps :=
      ⟨l.steps - args.length, by omega, by omega⟩
    have hmore := heads_separators line (named.map namedArgument) hclosed
    have hrest := heads_separators line (args.map (·.1)) hmore
    have htail := argumentsTail_positional hargs hspells hmore line steps ⟨[a.2], []⟩
    rw [← hsteps, argumentsTail_named hnamed line rest steps hnamedsteps (by decide)] at htail
    rw [List.map_cons, List.cons_append, withCommas, List.flatMap_append, onLine_append,
      onLine_append, List.append_assoc, List.append_assoc]
    exact callTail_of_argument (heads_mono (hspellsa.heads_starts line _) (by rintro _ ⟨⟩ <;> rfl))
      (ha.argument hspellsa hrest line {}) hrest htail

/-! ## Primary expressions -/

/-- Literals that stand side by side are one constant, so none may follow one that is spelled. -/
def isLiteral : Token.Kind → Bool
  | .string _ => true
  | _ => false

theorem strings_text (s : List Char) (line : Nat) (hrest : Heads (isLiteral · = false) rest) :
    l.strings (⟨.string (.text s), line⟩ :: rest) =
      some (.constant (.str (String.ofList s)), rest) := by
  obtain ⟨⟨kind, line'⟩, hhead, hkind⟩ := hrest
  obtain ⟨more, rfl⟩ := List.head?_eq_some_iff.mp hhead
  have hmany (part : Parse (Option StringPiece))
      (hone : part (⟨.string (.text s), line⟩ :: ⟨kind, line'⟩ :: more) =
        some (some (.text s), ⟨kind, line'⟩ :: more))
      (hnone : part (⟨kind, line'⟩ :: more) = some (none, ⟨kind, line'⟩ :: more)) :=
    many_one hone hnone l.steps
  have hpiece : joinPieces [.text s] = some (.constant (.str (String.ofList s))) := by
    simp [joinPieces]
  rw [strings, bind_of (hmany _ ?_ ?_)]
  · simp only [hpiece]
    rfl
  · rfl
  · cases kind <;> first | rfl | cases hkind

theorem attachments_member (n : Nat) (e : Expr) (id : Identifier) (line : Nat) (rest : List Token) :
    l.attachments (n + 1) e (⟨.op ".", line⟩ :: ⟨.name id, line⟩ :: rest) =
      l.attachments n (.member e id) rest := by
  rw [attachments, bind_of (p := op? ".") rfl, if_pos rfl, bind_of (p := name) rfl]

theorem attachments_subscript {tokens : List Token} (h : l.subscriptTail tokens = some ((), rest))
    (n : Nat) (e : Expr) (line : Nat) :
    l.attachments (n + 1) e (⟨.op "[", line⟩ :: tokens) = l.attachments n (.subscript e) rest := by
  rw [attachments, bind_of (p := op? ".") rfl, if_neg Bool.false_ne_true,
    bind_of (p := op? "(") rfl, if_neg Bool.false_ne_true, bind_of (p := op? "[") rfl, if_pos rfl,
    bind_of h]

theorem attachments_call {tokens : List Token} {all : Arguments}
    (h : l.callTail tokens = some (all, rest)) (n : Nat) (e : Expr) (line : Nat) :
    l.attachments (n + 1) e (⟨.op "(", line⟩ :: tokens) =
      l.attachments n (.call e all.positional all.named) rest := by
  rw [attachments, bind_of (p := op? ".") rfl, if_neg Bool.false_ne_true,
    bind_of (p := op? "(") rfl, if_pos rfl, bind_of h]

end Level

theorem steps_levelAt (depth : Nat) : (levelAt depth).steps = depth := by
  cases depth <;> rfl

theorem length_le_withCommas {items : List (List Token.Kind)} {ks : List Token.Kind}
    (h : ks ∈ items) : ks.length ≤ (withCommas items).length := by
  cases items with
  | nil => cases h
  | cons first more =>
    rw [withCommas, List.length_append]
    rcases List.mem_cons.mp h with rfl | h
    · exact Nat.le_add_right _ _
    · have hsub : (.op "," :: ks).length ≤ (more.flatMap (.op "," :: ·)).length :=
        (List.sublist_flatten_of_mem (List.mem_map_of_mem h)).length_le
      rw [List.length_cons] at hsub
      omega

theorem length_items_le_withCommas (items : List (List Token.Kind)) :
    items.length ≤ (withCommas items).length + 1 := by
  cases items with
  | nil => exact Nat.zero_le _
  | cons first more =>
    have hmore : more.length ≤ (more.flatMap (.op "," :: ·)).length := by
      induction more with
      | nil => exact Nat.le_refl _
      | cons item more ih =>
        rw [List.flatMap_cons, List.length_append, List.length_cons, List.length_cons]
        omega
    rw [withCommas, List.length_append, List.length_cons]
    omega

/-- The rules read tokens as a primary expression and go on with what is attached to it, with no
more than one step used for each token. -/
def ReadsPrimary (ks : List Token.Kind) (e : Expr) : Prop :=
  ∀ depth, ks.length ≤ depth → ∀ line rest, Heads (Level.isLiteral · = false) rest →
    ∃ n, depth ≤ n + ks.length ∧
      (levelAt depth).primaryRule (onLine line ks ++ rest) = (levelAt depth).attachments n e rest

namespace ReadsPrimary

open Parse Level

variable {kind : Token.Kind} {ks js : List Token.Kind} {e e' : Expr} {depth : Nat}

theorem of_atom (hatom : ∀ depth line rest, Heads (isLiteral · = false) rest →
    (levelAt depth).atom (⟨kind, line⟩ :: rest) = some (e, rest)) : ReadsPrimary [kind] e := by
  intro depth _ line rest hrest
  refine ⟨depth, Nat.le_add_right _ _, ?_⟩
  rw [Level.primaryRule, onLine_cons, onLine_nil, List.singleton_append,
    bind_of (hatom depth line rest hrest), steps_levelAt]

/-- An attachment uses one step, and has one token at least. -/
theorem attach (h : ReadsPrimary ks e) (hkind : isLiteral kind = false)
    (hattach : ∀ depth, js.length < depth → ∀ n line rest,
      (levelAt depth).attachments (n + 1) e (⟨kind, line⟩ :: (onLine line js ++ rest)) =
        (levelAt depth).attachments n e' rest) : ReadsPrimary (ks ++ kind :: js) e' := by
  intro depth hdepth line rest _
  rw [List.length_append, List.length_cons] at hdepth ⊢
  obtain ⟨n, hn, hprimary⟩ := h depth (by omega) line (⟨kind, line⟩ :: (onLine line js ++ rest))
    (heads_cons (P := (isLiteral · = false)) hkind line _)
  obtain ⟨n, rfl⟩ : ∃ m, n = m + 1 := Nat.exists_eq_succ_of_ne_zero (by omega)
  refine ⟨n, by omega, ?_⟩
  rw [onLine_append, onLine_cons, List.append_assoc, List.cons_append]
  exact hprimary.trans (hattach depth (by omega) n line rest)

/-- Where the rules read a primary expression, they read an expression one level up. -/
theorem reads (hread : ReadsPrimary ks e) (h : Spells ks e) (hdepth : ks.length < depth) :
    (levelAt depth).Reads ks e := by
  obtain ⟨depth, rfl⟩ : ∃ m, depth = m + 1 := Nat.exists_eq_succ_of_ne_zero (by omega)
  intro line rest hrest
  obtain ⟨n, -, hprimary⟩ := hread depth (by omega) line rest (heads_mono hrest (by decide))
  rw [attachments_of_closed hrest] at hprimary
  exact expressionRule_of_primaryRule (h.heads_starts line rest) hrest hprimary

theorem subscript {index : Expr} (h : ReadsPrimary ks e) (hread : ReadsPrimary js index)
    (hindex : Spells js index) :
    ReadsPrimary (ks ++ .op "[" :: (js ++ [.op "]"])) (.subscript e) := by
  refine h.attach rfl fun depth hdepth n line rest => ?_
  rw [List.length_append, List.length_singleton] at hdepth
  have htail := (hread.reads hindex (by omega : js.length < depth)).subscriptTail hindex line rest
  rw [onLine_append, List.append_assoc]
  exact attachments_subscript htail n e line

/-- Each argument, and the number of the arguments, is bounded by the tokens between the
brackets. -/
theorem call {args : List (List Token.Kind × Expr)}
    {named : List (Identifier × List Token.Kind × Expr)} (h : ReadsPrimary ks e)
    (hargs : ∀ a ∈ args, Spells a.1 a.2) (hnamed : ∀ a ∈ named, Spells a.2.1 a.2.2)
    (hreadargs : ∀ a ∈ args, ReadsPrimary a.1 a.2)
    (hreadnamed : ∀ a ∈ named, ReadsPrimary a.2.1 a.2.2) :
    ReadsPrimary
      (ks ++ .op "(" :: (withCommas (args.map (·.1) ++ named.map namedArgument) ++ [.op ")"]))
      (.call e (args.map (·.2)) (named.map fun a => (some a.1.text, a.2.2))) := by
  refine h.attach rfl fun depth hdepth n line rest => ?_
  rw [List.length_append, List.length_singleton] at hdepth
  have hitem {js : List Token.Kind} (hjs : js ∈ args.map (·.1) ++ named.map namedArgument) :
      js.length < depth := by
    have := length_le_withCommas hjs
    omega
  have hreads : ∀ a ∈ args, (levelAt depth).Reads a.1 a.2 := fun a ha =>
    (hreadargs a ha).reads (hargs a ha)
      (hitem (List.mem_append_left _ (List.mem_map_of_mem ha)))
  have hnamedreads : ∀ a ∈ named, (levelAt depth).Reads a.2.1 a.2.2 := fun a ha => by
    have hlength := hitem (List.mem_append_right (args.map (·.1))
      (List.mem_map_of_mem (f := namedArgument) ha))
    rw [namedArgument, List.length_cons, List.length_cons] at hlength
    exact (hreadnamed a ha).reads (hnamed a ha) (by omega)
  have hsteps : args.length + named.length ≤ (levelAt depth).steps + 1 := by
    have hitems := length_items_le_withCommas (args.map (·.1) ++ named.map namedArgument)
    rw [List.length_append, List.length_map, List.length_map] at hitems
    rw [steps_levelAt]
    omega
  have hcall := callTail_of_reads hreads hargs hnamedreads hsteps line rest
  rw [onLine_append, List.append_assoc]
  exact attachments_call hcall n e line

end ReadsPrimary

namespace Spells

open Parse Level

variable {ks : List Token.Kind} {e : Expr}

/-- **Tokens that spell an expression are read as that expression**, and then what is attached to
it. -/
theorem readsPrimary (h : Spells ks e) : ReadsPrimary ks e := by
  induction h with
  | name id => exact .of_atom fun _ _ _ _ => rfl
  | none => exact .of_atom fun _ _ _ _ => rfl
  | text s =>
    refine .of_atom fun depth line rest hrest => ?_
    rw [atom, bind_of (p := next?) rfl]
    exact strings_text s line hrest
  | @member _ e _ id ih =>
    exact ih.attach rfl fun _ _ n line rest => attachments_member n e id line rest
  | subscript _ hindex ih ihindex => exact ih.subscript ihindex hindex
  | call _ _ _ hargs hnamed ih ihargs ihnamed => exact ih.call hargs hnamed ihargs ihnamed

/-- **Tokens that spell an expression are read as that expression.** -/
theorem reads (h : Spells ks e) {depth : Nat} (hdepth : ks.length < depth) :
    (levelAt depth).Reads ks e :=
  h.readsPrimary.reads h hdepth

end Spells

/-- The expression that a dotted name is. -/
def dottedExpr (n : DottedName) : Expr := n.rest.foldl .member (.name n.first)

theorem spells_dotted (n : DottedName) : Spells (Piece.dottedKinds n) (dottedExpr n) := by
  obtain ⟨first, rest⟩ := n
  induction rest using List.reverseRecOn with
  | nil => exact .name first
  | append_singleton rest id ih =>
    have hkinds : Piece.dottedKinds ⟨first, rest ++ [id]⟩ =
        Piece.dottedKinds ⟨first, rest⟩ ++ [.op ".", .name id] := by
      simp [Piece.dottedKinds]
    have hexpr : dottedExpr ⟨first, rest ++ [id]⟩ = .member (dottedExpr ⟨first, rest⟩) id := by
      simp [dottedExpr]
    rw [hkinds, hexpr]
    exact ih.member id

end ProviderRegistry.Syntax
