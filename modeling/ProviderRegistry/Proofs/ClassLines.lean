import ProviderRegistry.Proofs.Consuming
import ProviderRegistry.Proofs.TokenLines
import ProviderRegistry.Symbols.Source

/-!
# Classes in the order of the text

`writtenIn` lists the classes that statements declare part after part, as the parts of a statement
are written. The lines of their class statements rise through a whole module
(`sorted_linesIn`): a rule that reads statements adds lines to those before, and all of them
are behind what is still to be read.
-/

namespace ProviderRegistry

open Syntax

namespace Symbols

mutual

/-- The classes that a statement declares inside the class `enclosing`, in the order in which its
parts are written: what a try statement does in the end stands behind its handlers. -/
def writtenOf (enclosing : String) : Stmt → List ClassDeclaration
  | .classDef line name bases decorators body =>
    let qualname := qualify enclosing name.text
    ⟨qualname, line, bases, decorators, body⟩ :: writtenIn qualname body
  | .ifElse body orelse => writtenIn enclosing body ++ writtenIn enclosing orelse
  | .tryExcept body handlers orelse final =>
    writtenIn enclosing body ++ writtenInGroups enclosing handlers ++ writtenIn enclosing orelse ++
      writtenIn enclosing final
  | _ => []

/-- The classes that statements declare, in the order in which they are written. -/
def writtenIn (enclosing : String) : List Stmt → List ClassDeclaration
  | [] => []
  | s :: rest => writtenOf enclosing s ++ writtenIn enclosing rest

/-- The classes that the statements of handlers declare, in the order in which they are written. -/
def writtenInGroups (enclosing : String) : List (List Stmt) → List ClassDeclaration
  | [] => []
  | body :: rest => writtenIn enclosing body ++ writtenInGroups enclosing rest

end

/-! ## Lines of class statements -/

mutual

/-- Where a class is does not change the lines of the classes in it. -/
theorem map_line_writtenOf (enclosing other : String) : (s : Stmt) →
    (writtenOf enclosing s).map (·.line) = (writtenOf other s).map (·.line)
  | .classDef line name _ _ body => by
    simp only [writtenOf, List.map_cons]
    rw [map_line_writtenIn (qualify enclosing name.text) (qualify other name.text) body]
  | .ifElse body orelse => by
    simp only [writtenOf, List.map_append]
    rw [map_line_writtenIn enclosing other body, map_line_writtenIn enclosing other orelse]
  | .tryExcept body handlers orelse final => by
    simp only [writtenOf, List.map_append]
    rw [map_line_writtenIn enclosing other body, map_line_writtenInGroups enclosing other handlers,
      map_line_writtenIn enclosing other orelse, map_line_writtenIn enclosing other final]
  | .functionDef .. | .importNames _ | .importFrom .. | .assign .. | .annotated .. |
    .compound .. | .expression _ | .simple => rfl

theorem map_line_writtenIn (enclosing other : String) : (statements : List Stmt) →
    (writtenIn enclosing statements).map (·.line) = (writtenIn other statements).map (·.line)
  | [] => rfl
  | s :: rest => by
    simp only [writtenIn, List.map_append]
    rw [map_line_writtenOf enclosing other s, map_line_writtenIn enclosing other rest]

theorem map_line_writtenInGroups (enclosing other : String) : (groups : List (List Stmt)) →
    (writtenInGroups enclosing groups).map (·.line) = (writtenInGroups other groups).map (·.line)
  | [] => rfl
  | body :: rest => by
    simp only [writtenInGroups, List.map_append]
    rw [map_line_writtenIn enclosing other body, map_line_writtenInGroups enclosing other rest]

end

/-- The lines of the classes that a statement declares. -/
def linesOf (s : Stmt) : List Nat := (writtenOf "" s).map (·.line)

/-- The lines of the classes that statements declare. -/
def linesIn (statements : List Stmt) : List Nat := (writtenIn "" statements).map (·.line)

section

variable (body orelse final : List Stmt) (handlers : List (List Stmt))

@[simp]
theorem linesIn_nil : linesIn [] = [] := rfl

@[simp]
theorem linesIn_cons (s : Stmt) : linesIn (s :: body) = linesOf s ++ linesIn body := by
  rw [linesIn, writtenIn, List.map_append]
  rfl

@[simp]
theorem linesIn_append : linesIn (body ++ orelse) = linesIn body ++ linesIn orelse := by
  induction body with
  | nil => rfl
  | cons s rest ih => rw [List.cons_append, linesIn_cons, linesIn_cons, ih, List.append_assoc]

theorem linesIn_flatten : linesIn handlers.flatten = handlers.flatMap linesIn := by
  induction handlers with
  | nil => rfl
  | cons body rest ih => rw [List.flatten_cons, linesIn_append, ih, List.flatMap_cons]

theorem map_line_groups :
    (writtenInGroups "" handlers).map (·.line) = handlers.flatMap linesIn := by
  induction handlers with
  | nil => rfl
  | cons body rest ih =>
    rw [writtenInGroups, List.map_append, ih, List.flatMap_cons]
    rfl

@[simp]
theorem linesOf_classDef (line : Nat) (name : Identifier) (bases decorators : List Expr) :
    linesOf (.classDef line name bases decorators body) = line :: linesIn body := by
  rw [linesOf, linesIn, writtenOf, List.map_cons, map_line_writtenIn _ ""]

@[simp]
theorem linesOf_ifElse : linesOf (.ifElse body orelse) = linesIn body ++ linesIn orelse := by
  rw [linesOf, writtenOf, List.map_append]
  rfl

@[simp]
theorem linesOf_tryExcept : linesOf (.tryExcept body handlers orelse final) =
    linesIn body ++ handlers.flatMap linesIn ++ linesIn orelse ++ linesIn final := by
  rw [linesOf, writtenOf, List.map_append, List.map_append, List.map_append, map_line_groups]
  rfl

/-- A statement declares no class outside its functions, loops and contexts. -/
class IsClassless (s : Stmt) : Prop where
  lines : linesOf s = []

instance (name : Identifier) (decorators : List Expr) :
    IsClassless (.functionDef name decorators body) := ⟨rfl⟩

instance : IsClassless (.compound body handlers final) := ⟨rfl⟩

instance (names : List (Alias DottedName)) :
    IsClassless (.importNames names) := ⟨rfl⟩

instance (module : Option DottedName)
    (names : Option (List (Alias Identifier))) (level : Nat) :
    IsClassless (.importFrom module names level) := ⟨rfl⟩

instance (targets : List Expr) (value : Expr) :
    IsClassless (.assign targets value) := ⟨rfl⟩

instance (target : Expr) (value : Option Expr) :
    IsClassless (.annotated target value) := ⟨rfl⟩

instance (value : Expr) : IsClassless (.expression value) := ⟨rfl⟩

instance : IsClassless .simple := ⟨rfl⟩

end

end Symbols

/-! ## Rules and what they have read -/

namespace Syntax

open Symbols

/-- Lines rise, and what is still to be read is further down. -/
def Behind (lines : List Nat) (tokens : List Token) : Prop :=
  lines.Pairwise (· < ·) ∧ ∀ l ∈ lines, ∀ t ∈ tokens, l < t.line

/-- Lines rise, and what is still to be read is not above them. -/
def Reached (lines : List Nat) (tokens : List Token) : Prop :=
  lines.Pairwise (· < ·) ∧ ∀ l ∈ lines, ∀ t ∈ tokens, l ≤ t.line

section

variable {lines more : List Nat} {tokens rest : List Token} {t : Token}

theorem Behind.suffix (h : Behind lines tokens) (hrest : rest <:+ tokens) : Behind lines rest :=
  ⟨h.1, fun l hl t ht => h.2 l hl t (hrest.subset ht)⟩

theorem Reached.suffix (h : Reached lines tokens) (hrest : rest <:+ tokens) :
    Reached lines rest :=
  ⟨h.1, fun l hl t ht => h.2 l hl t (hrest.subset ht)⟩

theorem Behind.of_append (h : Behind (lines ++ more) tokens) : Behind lines tokens :=
  ⟨(List.pairwise_append.mp h.1).1, fun l hl => h.2 l (List.mem_append_left _ hl)⟩

theorem Behind.reached (h : Behind lines tokens) : Reached lines tokens :=
  ⟨h.1, fun l hl t ht => Nat.le_of_lt (h.2 l hl t ht)⟩

/-- What has been reached is behind the end of its line. -/
theorem Reached.behind (h : Reached lines (t :: rest)) (hlined : Lined (t :: rest))
    (hline : t.kind.isNewline = true) : Behind lines rest := by
  refine ⟨h.1, fun l hl t' ht' => ?_⟩
  have hle : l ≤ t.line := h.2 l hl t List.mem_cons_self
  have hlt : t.line < t'.line := (List.rel_of_pairwise_cons hlined ht').2 hline
  omega

/-- The line of the next token is reached with it. -/
theorem Behind.reached_concat (h : Behind lines (t :: rest)) (hlined : Lined (t :: rest)) :
    Reached (lines ++ [t.line]) rest := by
  refine ⟨List.pairwise_append.mpr ⟨h.1, List.pairwise_singleton _ _, fun l hl l' hl' => ?_⟩, ?_⟩
  · obtain rfl := List.mem_singleton.mp hl'
    exact h.2 l hl t List.mem_cons_self
  · intro l hl t' ht'
    have hle : t.line ≤ t'.line := (List.rel_of_pairwise_cons hlined ht').1
    rcases List.mem_append.mp hl with hl | hl
    · have hlt : l < t.line := h.2 l hl t List.mem_cons_self
      omega
    · obtain rfl := List.mem_singleton.mp hl
      exact hle

end

namespace Parse

variable {α β : Type} {p q : Parse α} {f : α → Parse β} {P P' : List Token → Prop}
  {Q : α → List Token → Prop} {R : β → List Token → Prop}

/-- What holds of the tokens before a rule reads leads to what holds of those that it leaves. -/
def Reads (P : List Token → Prop) (p : Parse α) (Q : α → List Token → Prop) : Prop :=
  ∀ tokens a rest, Lined tokens → P tokens → p tokens = some (a, rest) → Lined rest ∧ Q a rest

theorem Reads.bind (hp : Reads P p Q) (hf : ∀ a, Reads (Q a) (f a) R) : Reads P (p >>= f) R := by
  intro tokens b rest hlined hP h
  obtain ⟨⟨a, middle⟩, ha, hb⟩ := Option.bind_eq_some_iff.mp h
  obtain ⟨hmiddle, hQ⟩ := hp tokens a middle hlined hP ha
  exact hf a middle b rest hmiddle hQ hb

theorem Reads.pure {a : α} (h : ∀ tokens, P tokens → Q a tokens) : Reads P (Pure.pure a) Q := by
  intro tokens b rest hlined hP hread
  cases hread
  exact ⟨hlined, h _ hP⟩

theorem Reads.orElse (hp : Reads P p Q) (hq : Reads P q Q) : Reads P (p <|> q) Q := by
  intro tokens a rest hlined hP h
  change (p tokens <|> q tokens) = some (a, rest) at h
  cases hfirst : p tokens with
  | none =>
    rw [hfirst] at h
    exact hq tokens a rest hlined hP h
  | some read =>
    rw [hfirst] at h
    exact hp tokens a rest hlined hP (hfirst.trans h)

theorem Reads.refuse : Reads P (refuse : Parse α) Q := by
  intro tokens a rest _ _ h
  cases h

theorem Reads.of_imp (h : Reads P p Q) (hP : ∀ tokens, P' tokens → P tokens) : Reads P' p Q :=
  fun tokens a rest hlined hP' hread => h tokens a rest hlined (hP tokens hP') hread

theorem Reads.behind [h : Advances p] (lines : List Nat) :
    Reads (Behind lines) p fun _ => Behind lines := by
  intro tokens a rest hlined hbehind hread
  have hrest := h.leaves tokens a rest hread
  exact ⟨hlined.suffix hrest, hbehind.suffix hrest⟩

theorem Reads.reached [h : Advances p] (lines : List Nat) :
    Reads (Reached lines) p fun _ => Reached lines := by
  intro tokens a rest hlined hreached hread
  have hrest := h.leaves tokens a rest hread
  exact ⟨hlined.suffix hrest, hreached.suffix hrest⟩

/-- What has been reached is behind a line end that is taken. -/
theorem reads_newline (lines : List Nat) : Reads (Reached lines) (take? (·.isNewline))
    fun taken => if taken then Behind lines else Reached lines := by
  intro tokens taken rest hlined hreached hread
  cases tokens with
  | nil =>
    cases hread
    exact ⟨hlined, hreached⟩
  | cons t more =>
    simp only [take?] at hread
    split at hread <;> cases hread
    next hnewline =>
      exact ⟨hlined.suffix (List.suffix_cons t _), hreached.behind hlined hnewline⟩
    next => exact ⟨hlined, hreached⟩

theorem of_expect_eq_some {sort : Token.Kind → Bool} {tokens rest : List Token} {a : Unit}
    (h : expect sort tokens = some (a, rest)) :
    ∃ t, tokens = t :: rest ∧ sort t.kind = true := by
  obtain ⟨⟨taken, middle⟩, htake, hrest⟩ := Option.bind_eq_some_iff.mp h
  cases tokens with
  | nil =>
    cases htake
    cases hrest
  | cons t more =>
    simp only [take?] at htake
    split at htake <;> cases htake
    next hsort =>
      cases hrest
      exact ⟨t, rfl, hsort⟩
    next => cases hrest

theorem reads_expectNewline (lines : List Nat) :
    Reads (Reached lines) (expect (·.isNewline)) fun _ => Behind lines := by
  intro tokens a rest hlined hreached hread
  obtain ⟨t, rfl, hnewline⟩ := of_expect_eq_some hread
  exact ⟨hlined.suffix (List.suffix_cons t rest), hreached.behind hlined hnewline⟩

/-- A rule adds the lines of what it reads to those before. -/
def Adds (p : Parse α) (linesFor : α → List Nat) : Prop :=
  ∀ lines, Reads (Behind lines) p fun a => Behind (lines ++ linesFor a)

/-- A rule adds the lines of what it reads, and goes on beyond the line where it starts. -/
def AddsBelow (p : Parse α) (linesFor : α → List Nat) : Prop :=
  ∀ lines, Reads (Reached lines) p fun a => Behind (lines ++ linesFor a)

theorem AddsBelow.adds {linesFor : α → List Nat} (h : AddsBelow p linesFor) : Adds p linesFor :=
  fun lines => (h lines).of_imp fun _ hbehind => hbehind.reached

theorem Adds.many {part : Parse (Option α)} {linesFor : α → List Nat}
    (h : Adds part fun found => (found.map linesFor).getD []) (steps : Nat) :
    Adds (many part steps) fun items => items.flatMap linesFor := by
  induction steps with
  | zero =>
    intro lines
    exact .pure fun tokens hbehind => by simpa using hbehind
  | succ steps ih =>
    intro lines
    unfold Parse.many
    refine (h lines).bind fun found => ?_
    cases found with
    | none => exact .pure fun tokens hbehind => hbehind
    | some a =>
      refine (ih (lines ++ linesFor a)).bind fun items => .pure fun tokens hbehind => ?_
      simpa using hbehind

/-- What a rule reads has a property. -/
def Yields (p : Parse α) (holds : α → Prop) : Prop :=
  ∀ tokens a rest, p tokens = some (a, rest) → holds a

variable {holds : α → Prop} {holds' : β → Prop}

theorem Yields.pure {a : α} (h : holds a) : Yields (Pure.pure a) holds := by
  intro tokens b rest hread
  cases hread
  exact h

theorem Yields.bind (hp : Yields p holds) (hf : ∀ a, holds a → Yields (f a) holds') :
    Yields (p >>= f) holds' := by
  intro tokens b rest hread
  obtain ⟨⟨a, middle⟩, ha, hb⟩ := Option.bind_eq_some_iff.mp hread
  exact hf a (hp tokens a middle ha) middle b rest hb

/-- Only what is read last counts. -/
theorem Yields.of_last (hf : ∀ a, Yields (f a) holds') : Yields (p >>= f) holds' := by
  intro tokens b rest hread
  obtain ⟨⟨a, middle⟩, ha, hb⟩ := Option.bind_eq_some_iff.mp hread
  exact hf a middle b rest hb

theorem Yields.many {part : Parse (Option α)} (h : Yields part fun found => ∀ a ∈ found, holds a)
    (steps : Nat) : Yields (many part steps) fun items => ∀ a ∈ items, holds a := by
  induction steps with
  | zero => exact .pure (List.forall_mem_nil _)
  | succ steps ih =>
    unfold Parse.many
    refine h.bind fun found hfound => ?_
    cases found with
    | none => exact .pure (List.forall_mem_nil _)
    | some a =>
      refine ih.bind fun items hitems => .pure ?_
      exact List.forall_mem_cons.mpr ⟨hfound a rfl, hitems⟩

/-- A rule whose results have no lines adds none. -/
theorem Yields.adds {linesFor : α → List Nat} [Advances p]
    (hnone : Yields p fun a => linesFor a = []) : Adds p linesFor := by
  intro lines tokens a rest hlined hbehind hread
  dsimp only
  rw [hnone tokens a rest hread, List.append_nil]
  exact Reads.behind lines tokens a rest hlined hbehind hread

/-- What a rule reads declares no class. -/
class ReadsClassless (p : Parse Stmt) : Prop where
  yields : p.Yields IsClassless

instance {s : Stmt} [h : IsClassless s] : ReadsClassless (Pure.pure s) := ⟨.pure h⟩

instance : ReadsClassless refuse where
  yields := by
    intro tokens s rest hread
    cases hread

instance {f : α → Parse Stmt} [h : ∀ a, ReadsClassless (f a)] : ReadsClassless (p >>= f) :=
  ⟨.of_last fun a => (h a).yields⟩

instance {p q : Parse Stmt} {c : Prop} [Decidable c] [hp : ReadsClassless p]
    [hq : ReadsClassless q] : ReadsClassless (if c then p else q) := by
  split
  · exact hp
  · exact hq

theorem ReadsClassless.adds {p : Parse Stmt} [h : ReadsClassless p] [Advances p] :
    Adds p linesOf :=
  Yields.adds fun tokens s rest hread => (h.yields tokens s rest hread).lines

end Parse

/-! ## Statements -/

namespace BlockLevel

open Parse

variable {b : BlockLevel}

/-! ### What declares no class -/

section

set_option synthInstance.maxSize 100000000

instance (steps : Nat) (targets : List Expr) (last : Expr) :
    (b.assignmentTail steps targets last).ReadsClassless := by
  induction steps generalizing targets last with
  | zero => exact inferInstanceAs (ReadsClassless refuse)
  | succ steps ih =>
    unfold assignmentTail
    infer_instance

instance : b.expressionStatement.ReadsClassless := by
  unfold expressionStatement
  infer_instance

instance : b.importTail.ReadsClassless := by
  unfold importTail
  infer_instance

instance : b.importFromTail.ReadsClassless := by
  unfold importFromTail
  infer_instance

theorem readsClassless_keywordStatement {word : String} {tail : Parse Stmt}
    (htail : b.keywordStatement word = some tail) : tail.ReadsClassless := by
  unfold keywordStatement at htail
  split at htail <;> cases htail <;> infer_instance

instance : b.simpleStatement.ReadsClassless := by
  unfold simpleStatement
  refine ⟨.of_last fun first => ?_⟩
  split
  · split
    next tail htail =>
      have htail := readsClassless_keywordStatement htail
      exact .of_last fun _ => htail.yields
    next => exact ReadsClassless.yields
  · exact ReadsClassless.yields

instance : b.whileTail.ReadsClassless := by
  unfold whileTail
  infer_instance

instance : b.forTail.ReadsClassless := by
  unfold forTail
  infer_instance

instance : b.withTail.ReadsClassless := by
  unfold withTail
  infer_instance

instance (decorators : List Expr) : (b.functionTail decorators).ReadsClassless := by
  unfold functionTail
  infer_instance

instance : b.asyncTail.ReadsClassless := by
  unfold asyncTail
  infer_instance

end

theorem linesIn_eq_nil {statements : List Stmt} (h : ∀ s ∈ statements, IsClassless s) :
    linesIn statements = [] := by
  induction statements with
  | nil => rfl
  | cons s rest ih =>
    rw [List.forall_mem_cons] at h
    rw [linesIn_cons, h.1.lines, ih h.2, List.nil_append]

theorem yields_simpleStatements :
    b.simpleStatements.Yields fun statements => linesIn statements = [] := by
  unfold simpleStatements
  refine ReadsClassless.yields.bind fun first hfirst => ?_
  refine Yields.bind (Yields.many ?_ _ : Yields _ fun rest => ∀ s ∈ rest, IsClassless s)
    fun rest hrest => ?_
  · refine .of_last fun more => ?_
    split
    · refine .of_last fun ended => ?_
      split
      · exact .pure fun s hs => by cases hs
      · refine ReadsClassless.yields.bind fun s hs => .pure ?_
        rintro _ ⟨rfl⟩
        exact hs
    · exact .pure fun s hs => by cases hs
  · exact .of_last fun _ => .pure (linesIn_eq_nil (List.forall_mem_cons.mpr ⟨hfirst, hrest⟩))

theorem yields_matchStatement :
    b.matchStatement.Yields fun statements => linesIn statements = [] := by
  unfold matchStatement
  refine .of_last fun _ => .of_last fun _ => .of_last fun _ => .of_last fun _ => ?_
  refine .of_last fun _ => .of_last fun cases => ?_
  dsimp only
  split
  · exact .of_last fun _ => .of_last fun _ => .pure rfl
  · exact .of_last fun _ => .pure rfl

/-! ### What declares classes -/

/-- Simple statements end their line, and declare nothing. -/
theorem addsBelow_simpleStatements [b.Advances] : b.simpleStatements.AddsBelow linesIn := by
  intro lines tokens statements rest hlined hreached hread
  have hends : Reads (Reached lines) b.simpleStatements fun _ => Behind lines := by
    unfold simpleStatements
    refine .bind (.reached lines) fun first => ?_
    refine .bind (.reached lines) fun rest => ?_
    exact (reads_expectNewline lines).bind fun _ => .pure fun _ hbehind => hbehind
  dsimp only
  rw [yields_simpleStatements tokens statements rest hread, List.append_nil]
  exact hends tokens statements rest hlined hreached hread

variable (h : b.block.AddsBelow linesIn)

include h

theorem addsBelow_body : b.body.AddsBelow linesIn := fun lines =>
  .bind (.reached lines) fun _ => h lines

theorem adds_bodyAfter (word : String) : (b.bodyAfter word).Adds linesIn := by
  intro lines
  unfold bodyAfter
  refine .bind (.behind lines) fun found => ?_
  split
  · exact (addsBelow_body h).adds lines
  · exact .pure fun tokens hbehind => by simpa using hbehind

variable [b.Advances]

theorem adds_ifTail (steps : Nat) : (b.ifTail steps).Adds linesOf := by
  induction steps with
  | zero => exact fun lines => .refuse
  | succ steps ih =>
    intro lines
    unfold ifTail
    refine .bind (.behind lines) fun _ => ?_
    refine ((addsBelow_body h).adds lines).bind fun body => ?_
    refine .bind (.behind _) fun found => ?_
    split
    · refine (ih _).bind fun s => .pure fun tokens hbehind => ?_
      simpa using hbehind
    · refine (adds_bodyAfter h _ _).bind fun orelse => .pure fun tokens hbehind => ?_
      simpa using hbehind

theorem adds_handler? (isGroup : Bool) :
    (b.handler? isGroup).Adds fun found => (found.map linesIn).getD [] := by
  intro lines
  unfold handler?
  refine .bind (.behind lines) fun found => ?_
  have hbody : Reads (Behind lines) (do return some (← b.body)) fun found =>
      Behind (lines ++ (found.map linesIn).getD []) := by
    refine ((addsBelow_body h).adds lines).bind fun body => .pure fun tokens hbehind => ?_
    simpa using hbehind
  split
  · split
    · exact .bind (.behind lines) fun _ => .bind (.behind lines) fun _ => hbody
    · refine .bind (.behind lines) fun colon => ?_
      split
      · exact .bind (.behind lines) fun _ => hbody
      · exact hbody
  · exact .pure fun tokens hbehind => by simpa using hbehind

theorem adds_tryTail : b.tryTail.Adds linesOf := by
  intro lines
  unfold tryTail
  refine ((addsBelow_body h).adds lines).bind fun body => ?_
  refine .bind (.behind _) fun found => ?_
  split
  · refine ((addsBelow_body h).adds _).bind fun final => .pure fun tokens hbehind => ?_
    simpa using hbehind
  · refine .bind (.behind _) fun second => ?_
    refine ((adds_handler? h _).many _ _).bind fun handlers => ?_
    -- Both sorts of handlers are followed by the same parts, but groups are not looked into.
    have hends (result : List Stmt → List Stmt → Stmt)
        (hresult : ∀ orelse final, linesOf (result orelse final) = [] ∨
          linesOf (result orelse final) =
            linesIn body ++ handlers.flatMap linesIn ++ linesIn orelse ++ linesIn final) :
        Reads (Behind (lines ++ linesIn body ++ handlers.flatMap linesIn)) (do
          let orelse ← b.bodyAfter "else"
          let final ← b.bodyAfter "finally"
          return result orelse final) fun s => Behind (lines ++ linesOf s) := by
      refine (adds_bodyAfter h _ _).bind fun orelse => (adds_bodyAfter h _ _).bind fun final => ?_
      refine .pure fun tokens hbehind => ?_
      rcases hresult orelse final with hnone | hall
      · rw [hnone, List.append_nil]
        simp only [List.append_assoc] at hbehind
        exact hbehind.of_append
      · simpa [hall] using hbehind
    split
    · dsimp only
      split
      · exact Reads.refuse.bind fun _ => hends _ fun _ _ => .inl (rfl)
      · exact hends _ fun _ _ => .inl (rfl)
    · dsimp only
      split
      · exact Reads.refuse.bind fun _ => hends _ fun _ _ => .inr (linesOf_tryExcept _ _ _ _)
      · exact hends _ fun _ _ => .inr (linesOf_tryExcept _ _ _ _)

/-- A class is on the line of its keyword, and its body on lines further down. -/
theorem adds_classStatement (decorators : List Expr) :
    (b.classStatement decorators).Adds linesOf := by
  intro lines
  unfold classStatement
  have hline : Reads (Behind lines) line fun l tokens =>
      Behind lines tokens ∧ ∀ t ∈ tokens.head?, t.line = l := by
    intro tokens l rest hlined hbehind hread
    cases hread
    refine ⟨hlined, hbehind, fun t ht => ?_⟩
    rw [ht]
    rfl
  have hkeyword (l : Nat) : Reads (fun tokens => Behind lines tokens ∧
      ∀ t ∈ tokens.head?, t.line = l) (keyword "class") fun _ => Reached (lines ++ [l]) := by
    rintro tokens a rest hlined ⟨hbehind, hl⟩ hread
    obtain ⟨t, rfl, -⟩ := of_expect_eq_some hread
    rw [← hl t rfl]
    exact ⟨hlined.suffix (List.suffix_cons t rest), hbehind.reached_concat hlined⟩
  refine hline.bind fun l => (hkeyword l).bind fun _ => ?_
  refine .bind (.reached _) fun id => ?_
  refine .bind (.reached _) fun bracketed => ?_
  have hbody (args : Level.Arguments) : Reads (Reached (lines ++ [l])) (do
      return .classDef l id args.positional decorators (← b.body)) fun s =>
        Behind (lines ++ linesOf s) := by
    refine (addsBelow_body h _).bind fun body => .pure fun tokens hbehind => ?_
    simpa using hbehind
  split
  · exact .bind (.reached _) hbody
  · exact hbody {}

theorem adds_decorated : b.decorated.Adds linesOf := by
  intro lines
  unfold decorated
  refine .bind (.behind lines) fun decorators => ?_
  refine .bind (.behind lines) fun isClass => ?_
  split
  · exact adds_classStatement h decorators lines
  · refine .bind (.behind lines) fun _ => ?_
    refine .bind (.behind lines) fun _ => ?_
    exact ReadsClassless.adds lines

theorem adds_compoundStatement {word : String} {tail : Parse Stmt}
    (htail : b.compoundStatement word = some tail) : tail.Adds linesOf := by
  unfold compoundStatement at htail
  split at htail <;> cases htail
  · exact adds_ifTail h _
  · exact ReadsClassless.adds
  · exact ReadsClassless.adds
  · exact ReadsClassless.adds
  · exact adds_tryTail h
  · exact ReadsClassless.adds
  · exact ReadsClassless.adds

theorem adds_statement : b.statement.Adds linesIn := by
  intro lines
  have hone {p : Parse Stmt} (hp : p.Adds linesOf) : Reads (Behind lines) (do return [← p])
      fun statements => Behind (lines ++ linesIn statements) :=
    (hp lines).bind fun s => .pure fun tokens hbehind => by simpa using hbehind
  have hsimple := (addsBelow_simpleStatements (b := b)).adds lines
  unfold statement
  refine .bind (.behind lines) fun first => ?_
  split
  · exact hone (adds_decorated h)
  · exact hone (adds_classStatement h [])
  · split
    next tail htail =>
      refine .bind (.behind lines) fun _ => ?_
      exact hone (adds_compoundStatement h htail)
    next => exact hsimple
  · split
    · exact (yields_matchStatement.adds lines).orElse hsimple
    · exact hsimple
  · exact hsimple

theorem adds_statements (steps : Nat) : (b.statements steps).Adds linesIn := by
  intro lines
  unfold statements
  refine Reads.bind (Adds.many ?_ steps lines : Reads _ _ fun groups =>
    Behind (lines ++ groups.flatMap linesIn)) fun groups => .pure fun tokens hbehind => ?_
  · intro lines
    refine .bind (.behind lines) fun first => ?_
    split
    · exact .pure fun tokens hbehind => by simpa using hbehind
    · exact .pure fun tokens hbehind => by simpa using hbehind
    · exact (adds_statement h lines).bind fun _ => .pure fun _ hbehind => hbehind
  · rwa [linesIn_flatten]

theorem addsBelow_blockRule : b.blockRule.AddsBelow linesIn := by
  intro lines
  unfold blockRule
  refine (reads_newline lines).bind fun ended => ?_
  cases ended with
  | true =>
    refine .bind (.behind lines) fun _ => ?_
    refine (adds_statements h _ lines).bind fun body => ?_
    exact .bind (.behind _) fun _ => .pure fun _ hbehind => hbehind
  | false => exact addsBelow_simpleStatements lines

end BlockLevel

theorem addsBelow_block {patterns : PatternLevel} [patterns.Advances] (depth : Nat) :
    (blockLevelAt patterns depth).block.AddsBelow linesIn := by
  induction depth with
  | zero => exact fun lines => .refuse
  | succ depth ih => exact BlockLevel.addsBelow_blockRule ih

/-- **The classes of a module are written on lines further and further down.** -/
theorem sorted_linesIn {text : List Char} {statements : List Stmt}
    (h : parseModule? text = some statements) : (linesIn statements).Pairwise (· < ·) := by
  unfold parseModule? at h
  split at h
  next => cases h
  next =>
    obtain ⟨tokens, hlex, hparse⟩ := Option.bind_eq_some_iff.mp h
    unfold parseTokens at hparse
    dsimp only at hparse
    split at hparse
    next read hread =>
      obtain rfl := Option.some.inj hparse
      have hstart : Behind [] tokens := ⟨.nil, List.forall_mem_nil _⟩
      exact (BlockLevel.adds_statements (addsBelow_block _) _ [] tokens read [] (lined_of_lex hlex) hstart
        hread).2.1
    next => cases hparse

end Syntax

end ProviderRegistry
