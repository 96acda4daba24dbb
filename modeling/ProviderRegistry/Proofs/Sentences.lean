import ProviderRegistry.Proofs.Phrases

/-!
# Sentences

Tokens that spell statements, and how the rules read them back: first the statements that stand on
a line of their own (`SpellsLine`), then a whole block of them with the classes and functions in it
(`SpellsBlock`).
-/

namespace ProviderRegistry.Syntax

open Parse Level

/-- Names with commas between them. -/
def nameList (ids : List Identifier) : List Token.Kind := withCommas (ids.map fun id => [.name id])

/-- Which tokens spell a statement on a line, as far as it is made up of expressions that are
spelled. A statement that starts with the word for a match could be one. -/
inductive SpellsLine : List Token.Kind → Stmt → Prop where
  | text (s : List Char) :
    SpellsLine [.string (.text s)] (.expression (.constant (.str (String.ofList s))))
  | importFrom (module : DottedName) {names : List Identifier} (hnames : names ≠ []) :
    SpellsLine
      (.keyword "from" :: (Piece.dottedKinds module ++ .keyword "import" :: nameList names))
      (.importFrom (some module) (some (names.map (⟨·, none⟩))) 0)
  | assign {id : Identifier} (hid : id.text ≠ "match") {ks : List Token.Kind} {e : Expr}
    (h : Spells ks e) : SpellsLine (.name id :: .op "=" :: ks) (.assign [.name id] e)
  | annotated {id : Identifier} (hid : id.text ≠ "match") {js ks : List Token.Kind} {e type : Expr}
    (htype : Spells js type) (h : Spells ks e) :
    SpellsLine (.name id :: .op ":" :: (js ++ .op "=" :: ks)) (.annotated (.name id) (some e))
  | delete (id : Identifier) : SpellsLine [.keyword "del", .name id] .simple
  | returned {ks : List Token.Kind} {e : Expr} (h : Spells ks e) :
    SpellsLine (.keyword "return" :: ks) .simple

/-! ## Parts of statements -/

theorem length_rest_le_dottedKinds (n : DottedName) :
    n.rest.length ≤ (Piece.dottedKinds n).length := by
  obtain ⟨first, rest⟩ := n
  induction rest with
  | nil => exact Nat.zero_le _
  | cons id rest ih =>
    simp only [Piece.dottedKinds, List.flatMap_cons, List.length_cons, List.length_append] at ih ⊢
    omega

section

/-- What ends the expressions of a statement. -/
def ends : List Token.Kind := [.newline, .op "=", .op ":"]

variable {l : Level} {ks : List Token.Kind} {e : Expr} {rest : List Token}

theorem heads_closers_of_ends (hrest : Heads (· ∈ ends) rest) : Heads (· ∈ closers) rest :=
  heads_mono hrest fun kind h => by
    simp only [ends, List.mem_cons, List.not_mem_nil, or_false] at h
    rcases h with rfl | rfl | rfl <;> simp [closers]

theorem not_comma_of_ends (hrest : Heads (· ∈ ends) rest) : Heads (·.isOp "," = false) rest :=
  heads_mono hrest (by decide)

theorem heads_newline (line : Nat) (rest : List Token) :
    Heads (· ∈ ends) (⟨.newline, line⟩ :: rest) :=
  heads_cons (by simp [ends]) line rest

theorem Level.Reads.starExpressions (hread : l.Reads ks e) (h : Spells ks e) (line : Nat)
    (rest : List Token) (hrest : Heads (· ∈ ends) rest) :
    l.starExpressions (onLine line ks ++ rest) = some (e, rest) := by
  have hone : l.starExpression (onLine line ks ++ rest) = some (e, rest) := by
    rw [starExpression, bind_of (p := op? "*")
      (take?_of_starts (h.heads_starts line rest) (by rintro _ ⟨⟩ <;> rfl)),
      if_neg Bool.false_ne_true, hread line rest (heads_closers_of_ends hrest)]
  rw [Level.starExpressions, bind_of (commaList_one _ hone (not_comma_of_ends hrest) _)]
  rfl

theorem Level.Reads.value (hread : l.Reads ks e) (h : Spells ks e) (line : Nat)
    (rest : List Token) (hrest : Heads (· ∈ ends) rest) :
    l.value (onLine line ks ++ rest) = some (e, rest) := by
  rw [Level.value, bind_of (p := keyword? "yield")
    (take?_of_starts (h.heads_starts line rest) (by rintro _ ⟨⟩ <;> rfl)),
    if_neg Bool.false_ne_true, hread.starExpressions h line rest hrest]

end

section

variable {α : Type} {part : Parse (Option α)} {rest : List Token}

/-- Parts that are read one after another until none is there. -/
theorem many_flatMap {β : Type} (kinds : β → List Token.Kind) (f : β → α) {line : Nat}
    (hpart : ∀ b more, part (onLine line (kinds b) ++ more) = some (some (f b), more))
    (hrest : part rest = some (none, rest)) (items : List β) (steps : Nat)
    (hsteps : items.length ≤ steps) :
    many part steps (onLine line (items.flatMap kinds) ++ rest) = some (items.map f, rest) := by
  induction items generalizing steps with
  | nil => exact many_none hrest steps
  | cons b items ih =>
    obtain ⟨steps, rfl⟩ : ∃ n, steps = n + 1 := Nat.exists_eq_succ_of_ne_zero (by
      rw [List.length_cons] at hsteps; omega)
    rw [List.flatMap_cons, onLine_append, List.append_assoc]
    exact many_cons (hpart b _) (ih steps (Nat.le_of_succ_le_succ hsteps))

end

namespace BlockLevel

variable {b : BlockLevel} {rest : List Token}

theorem dottedName_of_kinds (n : DottedName) (line : Nat)
    (hrest : Heads (·.isOp "." = false) rest) (hsteps : n.rest.length ≤ b.steps) :
    b.dottedName (onLine line (Piece.dottedKinds n) ++ rest) = some (n, rest) := by
  obtain ⟨first, more⟩ := n
  rw [dottedName, Piece.dottedKinds, onLine_cons, List.cons_append, bind_of (p := name) rfl,
    bind_of (many_flatMap _ id ?_ ?_ more b.steps hsteps), List.map_id]
  · rfl
  · intro id more
    rfl
  · rw [bind_of (p := op? ".") (take?_of_not hrest)]
    rfl

theorem nameAlias_of_closed (id : Identifier) (line : Nat) (hrest : Heads (· ∈ closers) rest) :
    nameAlias (⟨.name id, line⟩ :: rest) = some (⟨id, none⟩, rest) := by
  have hnone : asName? rest = some (none, rest) := by
    rw [asName?, bind_of (p := keyword? "as") (take?_of_not (heads_mono hrest (by decide)))]
    rfl
  rw [nameAlias, bind_of (p := name) rfl, bind_of hnone]
  rfl

/-- A comma or the end of the list follows a name, and no other name for it. -/
theorem heads_closers_names (hrest : Heads (· ∈ ends) rest) (line : Nat) (ids : List Identifier) :
    Heads (· ∈ closers) (onLine line (ids.flatMap fun id => [.op ",", .name id]) ++ rest) := by
  cases ids with
  | nil => exact heads_closers_of_ends hrest
  | cons id ids => exact heads_cons (by simp [closers]) line _

theorem commaItems_names (hrest : Heads (· ∈ ends) rest) (line : Nat) (ids : List Identifier)
    (steps : Nat) (hsteps : ids.length ≤ steps) :
    commaItems isAnyName nameAlias steps
        (onLine line (ids.flatMap fun id => [.op ",", .name id]) ++ rest) =
      some ((ids.map (⟨·, none⟩), false), rest) := by
  induction ids generalizing steps with
  | nil =>
    cases steps with
    | zero => rfl
    | succ steps =>
      rw [List.flatMap_nil, onLine_nil, List.nil_append, commaItems,
        bind_of (p := op? ",") (take?_of_not (not_comma_of_ends hrest))]
      rfl
  | cons id ids ih =>
    obtain ⟨steps, rfl⟩ : ∃ n, steps = n + 1 := Nat.exists_eq_succ_of_ne_zero (by
      rw [List.length_cons] at hsteps; omega)
    have hread := ih steps (Nat.le_of_succ_le_succ hsteps)
    have hclosed := heads_closers_names hrest line ids
    simp only [List.flatMap_cons, onLine_cons, List.cons_append, List.nil_append]
    rw [commaItems, bind_of (p := op? ",") rfl, if_pos rfl, bind_of (p := peek _) (a := true) rfl,
      if_pos rfl, bind_of (nameAlias_of_closed id line hclosed), bind_of hread]
    rfl

/-- Names with commas between them are imported as they are. -/
theorem commaList_nameList {ids : List Identifier} (hids : ids ≠ []) (line : Nat)
    (rest : List Token) (hrest : Heads (· ∈ ends) rest) (steps : Nat)
    (hsteps : ids.length ≤ steps + 1) :
    commaList isAnyName nameAlias steps (onLine line (nameList ids) ++ rest) =
      some ((ids.map (⟨·, none⟩), false), rest) := by
  obtain ⟨first, more, rfl⟩ := List.exists_cons_of_ne_nil hids
  have hread := commaItems_names hrest line more steps (Nat.le_of_succ_le_succ hsteps)
  have hclosed := heads_closers_names hrest line more
  simp only [nameList, List.map_cons, withCommas, List.flatMap_map, onLine_cons, List.cons_append,
    List.nil_append]
  rw [commaList, bind_of (nameAlias_of_closed first line hclosed), bind_of hread]
  rfl

theorem simpleStatement_keyword {word : String} (tail : Parse Stmt)
    (h : b.keywordStatement word = some tail) (line : Nat) (rest : List Token) :
    b.simpleStatement (⟨.keyword word, line⟩ :: rest) = tail rest := by
  rw [simpleStatement, bind_of (p := next?) rfl]
  simp only [List.head?_cons, Option.map_some, h]
  rw [bind_of (p := skip) rfl, List.tail_cons]

/-- A line ends after its only statement. -/
theorem simpleStatements_one {tokens : List Token} {stmt : Stmt} {line : Nat}
    (h : b.simpleStatement tokens = some (stmt, ⟨.newline, line⟩ :: rest)) :
    b.simpleStatements tokens = some ([stmt], rest) := by
  rw [simpleStatements, bind_of h]
  exact (bind_of (many_none rfl _)).trans rfl

/-- An import from a module reads the names behind its second keyword. -/
theorem importFromTail_of_names (module : DottedName) (line : Nat) {tokens : List Token}
    {names : List (Alias Identifier)} (htokens : Heads (isAnyName · = true) tokens)
    (hnames : commaList isAnyName nameAlias b.steps tokens = some ((names, false), rest))
    (hmodule : module.rest.length ≤ b.steps) :
    b.importFromTail
        (onLine line (Piece.dottedKinds module) ++ ⟨.keyword "import", line⟩ :: tokens) =
      some (.importFrom (some module) (some names) 0, rest) := by
  have himport : Heads (·.isOp "." = false) (⟨.keyword "import", line⟩ :: tokens) := ⟨_, rfl, rfl⟩
  have hdotted := dottedName_of_kinds (b := b) module line himport hmodule
  have hnone (symbol : String) : op? symbol tokens = some (false, tokens) :=
    take?_of_not (heads_mono htokens fun kind h => by cases kind <;> first | rfl | cases h)
  have hlevels : b.levels
      (onLine line (Piece.dottedKinds module) ++ ⟨.keyword "import", line⟩ :: tokens) =
      some (0, onLine line (Piece.dottedKinds module) ++ ⟨.keyword "import", line⟩ :: tokens) := by
    rw [levels, bind_of (many_none rfl _)]
    rfl
  have hsome : (do return some (← b.dottedName) : Parse (Option DottedName))
      (onLine line (Piece.dottedKinds module) ++ ⟨.keyword "import", line⟩ :: tokens) =
      some (some module, ⟨.keyword "import", line⟩ :: tokens) := by
    rw [bind_of hdotted]
    rfl
  rw [importFromTail, bind_of hlevels, bind_of (p := peek _) (a := true) rfl]
  dsimp only
  rw [if_pos rfl, bind_of hsome, if_neg (by simp), bind_of (p := keyword "import") rfl,
    bind_of (hnone "*"), if_neg Bool.false_ne_true, bind_of (hnone "("), if_neg Bool.false_ne_true,
    bind_of hnames]
  rfl

/-! ## Statements on a line -/

/-- The rules for statements whose expressions nest up to a depth. -/
theorem steps_of_terms {depth : Nat} (hterms : b.terms = levelAt depth) : b.steps = depth := by
  rw [steps, hterms, steps_levelAt]

section

variable {ks : List Token.Kind} {e : Expr} {depth line : Nat} (hterms : b.terms = levelAt depth)

include hterms

theorem expressionStatement_text (s : List Char) (hdepth : 1 < depth) :
    b.expressionStatement (⟨.string (.text s), line⟩ :: ⟨.newline, line⟩ :: rest) =
      some (.expression (.constant (.str (String.ofList s))), ⟨.newline, line⟩ :: rest) := by
  have hread := ((Spells.text s).reads hdepth).starExpressions (.text s) line _
    (heads_newline line rest)
  rw [← hterms] at hread
  rw [expressionStatement]
  exact (bind_of hread).trans rfl

theorem assignmentTail_one (h : Spells ks e) {target : Expr} (htarget : target.isTargets = true)
    (hdepth : ks.length < depth) :
    b.assignmentTail (b.steps + 1) [] target
        (⟨.op "=", line⟩ :: (onLine line ks ++ ⟨.newline, line⟩ :: rest)) =
      some (.assign [target] e, ⟨.newline, line⟩ :: rest) := by
  have hread := (h.reads hdepth).value h line _ (heads_newline line rest)
  rw [← hterms] at hread
  obtain ⟨steps, hsteps⟩ : ∃ n, b.steps = n + 1 :=
    Nat.exists_eq_succ_of_ne_zero (by rw [steps_of_terms hterms]; omega)
  rw [assignmentTail, bind_of (p := op? "=") rfl, if_pos rfl, htarget]
  simp only [Bool.not_true, Bool.false_eq_true, if_false]
  rw [bind_of hread, hsteps, assignmentTail, bind_of (p := op? "=") rfl]
  rfl

theorem expressionStatement_assign (id : Identifier) (h : Spells ks e)
    (hdepth : ks.length + 2 < depth) :
    b.expressionStatement (⟨.name id, line⟩ :: ⟨.op "=", line⟩ ::
        (onLine line ks ++ ⟨.newline, line⟩ :: rest)) =
      some (.assign [.name id] e, ⟨.newline, line⟩ :: rest) := by
  have hread := ((Spells.name id).reads (show 1 < depth by omega)).starExpressions (.name id) line
    (⟨.op "=", line⟩ :: (onLine line ks ++ ⟨.newline, line⟩ :: rest))
    (heads_cons (by simp [ends]) line _)
  rw [← hterms] at hread
  rw [expressionStatement]
  refine (bind_of hread).trans ?_
  rw [bind_of (p := peek _) (a := true) rfl, if_pos rfl]
  exact assignmentTail_one hterms h rfl (by omega)

theorem expressionStatement_annotated (id : Identifier) {js : List Token.Kind} {type : Expr}
    (htype : Spells js type) (h : Spells ks e) (hdepth : js.length + ks.length + 3 < depth) :
    b.expressionStatement (⟨.name id, line⟩ :: ⟨.op ":", line⟩ :: (onLine line js ++
        ⟨.op "=", line⟩ :: (onLine line ks ++ ⟨.newline, line⟩ :: rest))) =
      some (.annotated (.name id) (some e), ⟨.newline, line⟩ :: rest) := by
  have htarget := ((Spells.name id).reads (show 1 < depth by omega)).starExpressions (.name id) line
    (⟨.op ":", line⟩ :: (onLine line js ++
      ⟨.op "=", line⟩ :: (onLine line ks ++ ⟨.newline, line⟩ :: rest)))
    (heads_cons (by simp [ends]) line _)
  have hannotation := htype.reads (show js.length < depth by omega) line
    (⟨.op "=", line⟩ :: (onLine line ks ++ ⟨.newline, line⟩ :: rest))
    (heads_cons (by simp [closers]) line _)
  have hread := (h.reads (show ks.length < depth by omega)).value h line _ (heads_newline line rest)
  rw [← hterms] at htarget hannotation hread
  rw [expressionStatement]
  refine (bind_of htarget).trans ?_
  rw [bind_of (p := peek _) (a := false) rfl, if_neg Bool.false_ne_true,
    bind_of (p := op? ":") rfl, if_pos rfl]
  simp only [Expr.isSingleTarget, Bool.not_true, Bool.false_eq_true, if_false]
  rw [bind_of hannotation, bind_of (p := op? "=") rfl, if_pos rfl, bind_of hread]
  rfl

theorem returned_of_spells (h : Spells ks e) (hdepth : ks.length < depth) :
    b.returned (onLine line ks ++ ⟨.newline, line⟩ :: rest) =
      some ((), ⟨.newline, line⟩ :: rest) := by
  have hread := (h.reads hdepth).starExpressions h line _ (heads_newline line rest)
  rw [← hterms] at hread
  rw [returned, bind_of (peek_of (b := true) (heads_mono (h.heads_starts line _)
    (by rintro _ ⟨⟩ <;> rfl))), if_pos rfl, bind_of hread]
  rfl

theorem deletions_of_name (id : Identifier) (hdepth : 2 < depth) :
    b.deletions (⟨.name id, line⟩ :: ⟨.newline, line⟩ :: rest) =
      some ((), ⟨.newline, line⟩ :: rest) := by
  obtain ⟨depth, rfl⟩ : ∃ n, depth = n + 1 := Nat.exists_eq_succ_of_ne_zero (by omega)
  obtain ⟨n, -, hread⟩ := (Spells.name id).readsPrimary depth
    (by rw [List.length_singleton]; omega) line (⟨.newline, line⟩ :: rest) (heads_cons (P := (isLiteral · = false)) rfl line rest)
  rw [attachments_of_closed (heads_closers_of_ends (heads_newline line rest))] at hread
  have hprimary : b.terms.primary (⟨.name id, line⟩ :: ⟨.newline, line⟩ :: rest) =
      some (.name id, ⟨.newline, line⟩ :: rest) := by
    rw [hterms]
    exact hread
  rw [deletions, bind_of (commaList_one startsExpression hprimary
    (not_comma_of_ends (heads_newline line rest)) _)]
  rfl

end

/-- Where another statement stands, it is read before those behind it. -/
theorem statements_cons {tokens middle : List Token} {first stmts : List Stmt} {steps : Nat}
    (hhead : Heads (·.isDedent = false) tokens) (hfirst : b.statement tokens = some (first, middle))
    (hmore : b.statements steps middle = some (stmts, rest)) :
    b.statements (steps + 1) tokens = some (first ++ stmts, rest) := by
  obtain ⟨⟨kind, line⟩, ht, hkind⟩ := hhead
  obtain ⟨more, rfl⟩ := List.head?_eq_some_iff.mp ht
  rw [statements] at hmore ⊢
  obtain ⟨⟨groups, rest'⟩, hgroups, hpure⟩ := Option.bind_eq_some_iff.mp hmore
  obtain ⟨rfl, rfl⟩ := Prod.mk.inj (Option.some.inj hpure)
  rw [bind_of (many_cons (a := first) ?_ hgroups)]
  · rfl
  · rw [bind_of (p := next?) rfl]
    have hsome : (do return some (← b.statement) : Parse (Option (List Stmt)))
        (⟨kind, line⟩ :: more) = some (some first, middle) := by
      rw [bind_of hfirst]
      rfl
    cases kind <;> first | exact hsome | cases hkind

/-- A block ends with its indentation, or with the text. -/
theorem statements_nil (h : ∀ t ∈ rest.head?, t.kind = .dedent) (steps : Nat) :
    b.statements steps rest = some ([], rest) := by
  cases rest with
  | nil =>
    rw [statements, bind_of (many_none rfl steps)]
    rfl
  | cons t rest =>
    obtain ⟨kind, line⟩ := t
    obtain rfl : kind = .dedent := h _ rfl
    rw [statements, bind_of (many_none rfl steps)]
    rfl

end BlockLevel

/-! ## Blocks -/

/-- Which tokens spell a block of statements, among them classes and functions with one decorator
each. -/
inductive SpellsBlock : List Token → List Stmt → Prop where
  | done : SpellsBlock [] []
  | line (n : Nat) {ks : List Token.Kind} {s : Stmt} {tokens : List Token} {stmts : List Stmt}
    (h : SpellsLine ks s) (hmore : SpellsBlock tokens stmts) :
    SpellsBlock (onLine n ks ++ ⟨.newline, n⟩ :: tokens) (s :: stmts)
  | classDef (n m inside after : Nat) {ks : List Token.Kind} {decorator : Expr}
    {body tokens : List Token} {inner stmts : List Stmt} (hdecorator : Spells ks decorator)
    (id : Identifier) (hbody : SpellsBlock body inner) (hmore : SpellsBlock tokens stmts) :
    SpellsBlock
      (onLine n (.op "@" :: ks) ++ ⟨.newline, n⟩ ::
        (onLine m [.keyword "class", .name id, .op ":"] ++ ⟨.newline, m⟩ :: ⟨.indent, inside⟩ ::
          (body ++ ⟨.dedent, after⟩ :: tokens)))
      (.classDef m id [] [decorator] inner :: stmts)
  | functionDef (n m inside after : Nat) {ks js : List Token.Kind} {decorator type : Expr}
    {body tokens : List Token} {inner stmts : List Stmt} (hdecorator : Spells ks decorator)
    (id : Identifier) (htype : Spells js type) (hbody : SpellsBlock body inner)
    (hmore : SpellsBlock tokens stmts) :
    SpellsBlock
      (onLine n (.op "@" :: ks) ++ ⟨.newline, n⟩ ::
        (onLine m (.keyword "def" :: .name id :: .op "(" :: .op ")" :: .op "->" ::
            (js ++ [.op ":"])) ++ ⟨.newline, m⟩ :: ⟨.indent, inside⟩ ::
          (body ++ ⟨.dedent, after⟩ :: tokens)))
      (.functionDef id [decorator] inner :: stmts)

namespace SpellsLine

variable {b : BlockLevel} {ks : List Token.Kind} {s : Stmt} {depth : Nat}

/-- **A line that spells a statement is read as that statement.** -/
theorem simpleStatement (h : SpellsLine ks s) (hterms : b.terms = levelAt depth)
    (hdepth : ks.length < depth) (line : Nat) (rest : List Token) :
    b.simpleStatement (onLine line ks ++ ⟨.newline, line⟩ :: rest) =
      some (s, ⟨.newline, line⟩ :: rest) := by
  cases h with
  | text s =>
    rw [BlockLevel.simpleStatement, bind_of (p := next?) rfl]
    exact BlockLevel.expressionStatement_text hterms s hdepth
  | @importFrom module names hnames =>
    have hsteps := BlockLevel.steps_of_terms hterms
    rw [List.length_cons, List.length_append, List.length_cons] at hdepth
    have hmodule := length_rest_le_dottedKinds module
    have hlength := length_items_le_withCommas (names.map fun id => [.name id])
    rw [List.length_map] at hlength
    have hlist := BlockLevel.commaList_nameList hnames line _ (heads_newline line rest) b.steps
      (by unfold nameList at hdepth; omega)
    have hfirst : Heads (BlockLevel.isAnyName · = true)
        (onLine line (nameList names) ++ ⟨.newline, line⟩ :: rest) := by
      obtain ⟨first, more, rfl⟩ := List.exists_cons_of_ne_nil hnames
      exact heads_cons (P := (BlockLevel.isAnyName · = true)) rfl line _
    rw [onLine_cons, onLine_append, onLine_cons, List.cons_append, List.append_assoc,
      List.cons_append, BlockLevel.simpleStatement_keyword b.importFromTail rfl]
    exact BlockLevel.importFromTail_of_names module line hfirst hlist (by omega)
  | assign hid h =>
    rw [BlockLevel.simpleStatement, bind_of (p := next?) rfl]
    exact BlockLevel.expressionStatement_assign hterms _ h hdepth
  | annotated hid htype h =>
    rw [List.length_cons, List.length_cons, List.length_append, List.length_cons] at hdepth
    rw [BlockLevel.simpleStatement, bind_of (p := next?) rfl, onLine_cons, onLine_cons,
      onLine_append, onLine_cons, List.cons_append, List.cons_append, List.append_assoc,
      List.cons_append]
    exact BlockLevel.expressionStatement_annotated hterms _ htype h (by omega)
  | delete id =>
    have htail : b.keywordStatement "del" = some (do b.deletions; return .simple) := rfl
    rw [onLine_cons, List.cons_append, BlockLevel.simpleStatement_keyword _ htail]
    exact (bind_of (BlockLevel.deletions_of_name hterms id hdepth)).trans rfl
  | returned h =>
    have htail : b.keywordStatement "return" = some (do b.returned; return .simple) := rfl
    rw [onLine_cons, List.cons_append, BlockLevel.simpleStatement_keyword _ htail,
      bind_of (BlockLevel.returned_of_spells hterms h (Nat.lt_of_succ_lt hdepth))]
    rfl

/-- What a line that spells a statement starts with. -/
theorem statement_eq (h : SpellsLine ks s) (line : Nat) (rest : List Token) :
    b.statement (onLine line ks ++ rest) = b.simpleStatements (onLine line ks ++ rest) ∧
      Heads (·.isDedent = false) (onLine line ks ++ rest) := by
  cases h with
  | assign hid h =>
    refine ⟨?_, heads_cons (P := (·.isDedent = false)) rfl line _⟩
    rw [BlockLevel.statement, bind_of (p := next?) rfl]
    exact congrFun (if_neg hid) _
  | annotated hid htype h =>
    refine ⟨?_, heads_cons (P := (·.isDedent = false)) rfl line _⟩
    rw [BlockLevel.statement, bind_of (p := next?) rfl]
    exact congrFun (if_neg hid) _
  | _ => exact ⟨rfl, heads_cons (P := (·.isDedent = false)) rfl line _⟩

theorem statement (h : SpellsLine ks s) (hterms : b.terms = levelAt depth)
    (hdepth : ks.length < depth) (line : Nat) (rest : List Token) :
    b.statement (onLine line ks ++ ⟨.newline, line⟩ :: rest) = some ([s], rest) := by
  rw [(h.statement_eq line _).1]
  exact BlockLevel.simpleStatements_one (h.simpleStatement hterms hdepth line rest)

end SpellsLine

/-! ## Blocks that are spelled -/

namespace BlockLevel

variable {b : BlockLevel} {tokens rest : List Token} {stmts : List Stmt}

/-- A block on lines of its own. -/
theorem blockRule_of_statements {line inside after : Nat}
    (h : b.statements b.steps tokens = some (stmts, ⟨.dedent, after⟩ :: rest)) :
    b.blockRule (⟨.newline, line⟩ :: ⟨.indent, inside⟩ :: tokens) = some (stmts, rest) := by
  rw [blockRule, bind_of (p := take? _) rfl, if_pos rfl, bind_of (p := expect _) rfl, bind_of h]
  rfl

section

variable {depth n : Nat} {ks js : List Token.Kind} {decorator type : Expr}
  (hterms : b.terms = levelAt depth)

include hterms

theorem decorators_one (hdecorator : Spells ks decorator) (hdepth : ks.length < depth) (n : Nat)
    (tokens : List Token) (hnext : Heads (·.isOp "@" = false) tokens) :
    many b.decorator? b.steps
        (⟨.op "@", n⟩ :: (onLine n ks ++ ⟨.newline, n⟩ :: tokens)) =
      some ([decorator], tokens) := by
  have hread := (hdecorator.reads hdepth).namedExpression hdecorator n _
    (heads_closers_of_ends (heads_newline n tokens))
  rw [← hterms] at hread
  obtain ⟨steps, hsteps⟩ : ∃ m, b.steps = m + 1 :=
    Nat.exists_eq_succ_of_ne_zero (by rw [steps_of_terms hterms]; omega)
  rw [hsteps]
  refine many_one ?_ ?_ steps
  · rw [decorator?, bind_of (p := op? "@") rfl, if_pos rfl, bind_of hread]
    rfl
  · rw [decorator?, bind_of (p := op? "@") (take?_of_not hnext)]
    rfl

/-- A class with a decorator. -/
theorem statement_class (hdecorator : Spells ks decorator) (hdepth : ks.length < depth) {m : Nat}
    (id : Identifier) (hbody : b.block tokens = some (stmts, rest)) :
    b.statement (onLine n (.op "@" :: ks) ++ ⟨.newline, n⟩ ::
        (onLine m [.keyword "class", .name id, .op ":"] ++ tokens)) =
      some ([.classDef m id [] [decorator] stmts], rest) := by
  have hmany := decorators_one hterms hdecorator hdepth n
    (onLine m [.keyword "class", .name id, .op ":"] ++ tokens) ⟨_, rfl, rfl⟩
  have hclass : b.classStatement [decorator]
      (onLine m [.keyword "class", .name id, .op ":"] ++ tokens) =
      some (.classDef m id [] [decorator] stmts, rest) := by
    have hcolon : b.body (⟨.op ":", m⟩ :: tokens) = some (stmts, rest) := hbody
    rw [classStatement, bind_of (p := line) rfl, bind_of (p := keyword "class") rfl,
      bind_of (p := name) rfl, bind_of (p := op? "(") rfl]
    dsimp only
    rw [if_neg Bool.false_ne_true, bind_of (p := pure _) rfl]
    exact (bind_of hcolon).trans rfl
  rw [statement, bind_of (p := next?) rfl]
  refine (bind_of (a := .classDef m id [] [decorator] stmts) ?_).trans rfl
  rw [decorated, onLine_cons, List.cons_append, bind_of hmany,
    bind_of (p := peek _) (a := true) rfl, if_pos rfl, hclass]

/-- A function with a decorator and without parameters. -/
theorem statement_function (hdecorator : Spells ks decorator) (hdepth : ks.length < depth) {m : Nat}
    (id : Identifier) (htype : Spells js type) (htypedepth : js.length < depth)
    (hbody : b.block tokens = some (stmts, rest)) :
    b.statement (onLine n (.op "@" :: ks) ++ ⟨.newline, n⟩ ::
        (onLine m (.keyword "def" :: .name id :: .op "(" :: .op ")" :: .op "->" ::
          (js ++ [.op ":"])) ++ tokens)) =
      some ([.functionDef id [decorator] stmts], rest) := by
  have hmany := decorators_one hterms hdecorator hdepth n
    (onLine m (.keyword "def" :: .name id :: .op "(" :: .op ")" :: .op "->" ::
      (js ++ [.op ":"])) ++ tokens) ⟨_, rfl, rfl⟩
  have hread := htype.reads htypedepth m (⟨.op ":", m⟩ :: tokens)
    (heads_cons (by simp [closers]) m tokens)
  rw [← hterms] at hread
  have htail : b.functionTail [decorator] (⟨.name id, m⟩ :: ⟨.op "(", m⟩ :: ⟨.op ")", m⟩ ::
      ⟨.op "->", m⟩ :: (onLine m js ++ ⟨.op ":", m⟩ :: tokens)) =
      some (.functionDef id [decorator] stmts, rest) := by
    have hcolon : b.body (⟨.op ":", m⟩ :: tokens) = some (stmts, rest) := hbody
    have hparameters : b.terms.parameters true (·.isOp ")") (b.steps + 1) {}
        (⟨.op ")", m⟩ :: ⟨.op "->", m⟩ :: (onLine m js ++ ⟨.op ":", m⟩ :: tokens)) =
        some ((), ⟨.op ")", m⟩ :: ⟨.op "->", m⟩ :: (onLine m js ++ ⟨.op ":", m⟩ :: tokens)) := rfl
    rw [functionTail, bind_of (p := name) rfl, bind_of (p := op "(") rfl, bind_of hparameters,
      bind_of (p := op ")") rfl, bind_of (p := op? "->") rfl]
    dsimp only
    rw [if_pos rfl, bind_of hread]
    exact (bind_of hcolon).trans rfl
  rw [statement, bind_of (p := next?) rfl]
  refine (bind_of (a := .functionDef id [decorator] stmts) ?_).trans rfl
  rw [decorated, onLine_cons, List.cons_append, bind_of hmany,
    bind_of (p := peek _) (a := false) rfl, if_neg Bool.false_ne_true,
    bind_of (p := keyword? "async") rfl, bind_of (p := keyword "def") rfl, ← htail]
  simp [onLine]

end

end BlockLevel

/-- The rules for statements up to a depth, whose expressions nest up to another one. -/
theorem terms_blockLevelAt (patterns : PatternLevel) (depth : Nat) :
    (blockLevelAt patterns depth).terms = patterns.terms := by
  cases depth <;> rfl

theorem terms_patternLevelAt (terms : Level) (depth : Nat) :
    (patternLevelAt terms depth).terms = terms := by
  cases depth <;> rfl

section

variable {patterns : PatternLevel} {terms : Nat} {tokens : List Token} {stmts : List Stmt}

/-- Rules that are deep enough for the tokens of a block read them as its statements. -/
def ReadsBlock (patterns : PatternLevel) (terms : Nat) (tokens : List Token) (stmts : List Stmt) :
    Prop :=
  ∀ depth steps rest, tokens.length ≤ depth → tokens.length ≤ steps → tokens.length < terms →
    (∀ t ∈ rest.head?, t.kind = .dedent) →
    (blockLevelAt patterns depth).statements steps (tokens ++ rest) = some (stmts, rest)

/-- A block is read one level up from what is in it. -/
theorem ReadsBlock.block (h : ReadsBlock patterns terms tokens stmts)
    (hterms : patterns.terms = levelAt terms) (depth : Nat) (hdepth : tokens.length ≤ depth)
    (hlength : tokens.length < terms) (line inside after : Nat) (rest : List Token) :
    (blockLevelAt patterns (depth + 1)).block (⟨.newline, line⟩ :: ⟨.indent, inside⟩ ::
      (tokens ++ ⟨.dedent, after⟩ :: rest)) = some (stmts, rest) := by
  have hsteps := BlockLevel.steps_of_terms ((terms_blockLevelAt patterns depth).trans hterms)
  exact BlockLevel.blockRule_of_statements
    (h depth _ _ hdepth (by omega) hlength (by rintro t ⟨⟩; rfl))

/-- **Tokens that spell a block are read as the statements in it.** By induction on the block. -/
theorem SpellsBlock.readsBlock (h : SpellsBlock tokens stmts)
    (hterms : patterns.terms = levelAt terms) : ReadsBlock patterns terms tokens stmts := by
  have hall (depth : Nat) : (blockLevelAt patterns depth).terms = levelAt terms :=
    (terms_blockLevelAt patterns depth).trans hterms
  induction h with
  | done =>
    intro depth steps rest _ _ _ hrest
    exact BlockLevel.statements_nil hrest steps
  | @line n ks s tokens stmts h _ ih =>
    intro depth steps rest hdepth hsteps hlength hrest
    simp only [List.length_append, List.length_cons, onLine, List.length_map]
      at hdepth hsteps hlength
    obtain ⟨steps, rfl⟩ : ∃ m, steps = m + 1 := Nat.exists_eq_succ_of_ne_zero (by omega)
    rw [List.append_assoc, List.cons_append]
    exact BlockLevel.statements_cons (h.statement_eq (b := blockLevelAt patterns depth) n _).2
      (h.statement (hall depth) (by omega) n _)
      (ih depth steps rest (by omega) (by omega) (by omega) hrest)
  | @classDef n m inside after ks decorator body tokens inner stmts hdecorator id _ _ ihbody ih =>
    intro depth steps rest hdepth hsteps hlength hrest
    simp only [List.length_append, List.length_cons, onLine, List.length_map]
      at hdepth hsteps hlength
    obtain ⟨steps, rfl⟩ : ∃ m, steps = m + 1 := Nat.exists_eq_succ_of_ne_zero (by omega)
    obtain ⟨depth, rfl⟩ : ∃ m, depth = m + 1 := Nat.exists_eq_succ_of_ne_zero (by omega)
    have hbody := ihbody.block hterms depth (by omega) (by omega) m inside after (tokens ++ rest)
    have hclass := BlockLevel.statement_class (hall _) (n := n) (m := m) hdecorator (by omega) id
      hbody
    have hread := BlockLevel.statements_cons (heads_cons (P := (·.isDedent = false)) rfl n _) hclass
      (ih (depth + 1) steps rest (by omega) (by omega) (by omega) hrest)
    simpa [onLine] using hread
  | @functionDef n m inside after ks js decorator type body tokens inner stmts hdecorator id htype _
      _ ihbody ih =>
    intro depth steps rest hdepth hsteps hlength hrest
    simp only [List.length_append, List.length_cons, onLine, List.length_map]
      at hdepth hsteps hlength
    obtain ⟨steps, rfl⟩ : ∃ m, steps = m + 1 := Nat.exists_eq_succ_of_ne_zero (by omega)
    obtain ⟨depth, rfl⟩ : ∃ m, depth = m + 1 := Nat.exists_eq_succ_of_ne_zero (by omega)
    have hbody := ihbody.block hterms depth (by omega) (by omega) m inside after (tokens ++ rest)
    have hfunction := BlockLevel.statement_function (hall _) (n := n) (m := m) hdecorator
      (by omega) id htype (by omega) hbody
    have hread := BlockLevel.statements_cons (heads_cons (P := (·.isDedent = false)) rfl n _)
      hfunction (ih (depth + 1) steps rest (by omega) (by omega) (by omega) hrest)
    simpa [onLine] using hread

/-- **A text whose tokens spell a block is a module of the statements in it.** -/
theorem SpellsBlock.parseTokens (h : SpellsBlock tokens stmts) {depth : Nat}
    (hdepth : tokens.length < depth) : parseTokens depth tokens = some stmts := by
  have hread := h.readsBlock (terms_patternLevelAt (levelAt depth) depth) depth depth []
    (Nat.le_of_lt hdepth) (Nat.le_of_lt hdepth) hdepth (fun t ht => nomatch ht)
  rw [List.append_nil] at hread
  rw [Syntax.parseTokens, hread]

end

end ProviderRegistry.Syntax
