import Mathlib.Data.List.Infix
import ProviderRegistry.Syntax.Lexer
import ProviderRegistry.Syntax.Parse

/-!
# Lines of tokens

The lexer goes through a text from its first line to its last, and a line end is the last token of
its line. The lines of the tokens of a text therefore never fall, and rise after a line end
(`lined_of_lex`).
-/

namespace ProviderRegistry.Syntax

/-- A token can come before another one: it is not on a later line, nor on the same one when it
ends its line. -/
def Token.CanPrecede (t t' : Token) : Prop :=
  t.line ≤ t'.line ∧ (t.kind.isNewline = true → t.line < t'.line)

/-- Every token can come before those that follow. -/
def Lined (tokens : List Token) : Prop := tokens.Pairwise Token.CanPrecede

theorem Lined.suffix {tokens rest : List Token} (h : Lined tokens) (hrest : rest <:+ tokens) :
    Lined rest :=
  h.sublist hrest.sublist

theorem isNewline_of_takeToken {text rest : List Char} {kind : Token.Kind}
    (h : takeToken text = some (kind, rest)) : kind.isNewline = false := by
  unfold takeToken at h
  split at h
  next =>
    obtain ⟨_, -, heq⟩ := Option.map_eq_some_iff.mp h
    obtain ⟨rfl, -⟩ := Prod.mk.inj heq
    rfl
  next =>
    split at h
    next => cases h
    next =>
      split at h
      next =>
        obtain ⟨_, -, heq⟩ := Option.map_eq_some_iff.mp h
        obtain ⟨rfl, -⟩ := Prod.mk.inj heq
        rfl
      next =>
        split at h
        next =>
          dsimp only at h
          split at h
          next =>
            obtain ⟨rfl, -⟩ := Prod.mk.inj (Option.some.inj h)
            rw [Token.Kind.ofWord]
            split <;> rfl
          next => cases h
        next =>
          obtain ⟨_, -, heq⟩ := Option.map_eq_some_iff.mp h
          obtain ⟨rfl, -⟩ := Prod.mk.inj heq
          rfl

namespace Lexer

variable {lexer after : Lexer} {kind : Token.Kind} {indent : Indent} {tokens : List Token}
  {text : List Char}

/-- What has been read stands in order, and the current line comes after it. -/
structure Ordered (lexer : Lexer) : Prop where
  lined : Lined lexer.tokens.reverse
  line : ∀ t ∈ lexer.tokens, t.line ≤ lexer.line ∧ (t.kind.isNewline = true → t.line < lexer.line)

theorem ordered_start : Ordered {} := ⟨.nil, List.forall_mem_nil _⟩

theorem Ordered.advance (h : lexer.Ordered) (lines : Nat) : (lexer.advance lines).Ordered := by
  refine ⟨h.lined, fun t ht => ?_⟩
  obtain ⟨hle, hlt⟩ := h.line t ht
  exact ⟨Nat.le_add_right_of_le hle, fun hnewline => Nat.lt_add_right lines (hlt hnewline)⟩

theorem Ordered.lined_push (h : lexer.Ordered) (kind : Token.Kind) :
    Lined (lexer.push kind).tokens.reverse := by
  rw [Lexer.push, List.reverse_cons, Lined, List.pairwise_append]
  refine ⟨h.lined, List.pairwise_singleton _ _, fun t ht t' ht' => ?_⟩
  obtain rfl := List.mem_singleton.mp ht'
  exact h.line t (List.mem_reverse.mp ht)

theorem Ordered.push (h : lexer.Ordered) (hkind : kind.isNewline = false) :
    (lexer.push kind).Ordered := by
  refine ⟨h.lined_push kind, List.forall_mem_cons.mpr ⟨⟨Nat.le_refl _, ?_⟩, h.line⟩⟩
  rw [hkind]
  exact fun hfalse => absurd hfalse Bool.false_ne_true

/-- After a line end, the next line is read. -/
theorem Ordered.pushNewline (h : lexer.Ordered) : ((lexer.push .newline).advance 1).Ordered := by
  refine ⟨h.lined_push .newline, List.forall_mem_cons.mpr ⟨?_, (h.advance 1).line⟩⟩
  exact ⟨Nat.le_succ _, fun _ => Nat.lt_succ_self _⟩

theorem Ordered.of_eq (h : lexer.Ordered) (htokens : after.tokens = lexer.tokens)
    (hline : after.line = lexer.line) : after.Ordered := by
  refine ⟨htokens ▸ h.lined, ?_⟩
  rw [htokens, hline]
  exact h.line

theorem Ordered.bracket (h : lexer.Ordered) (hbracket : lexer.bracket kind = some after) :
    after.Ordered := by
  have hsame : after.tokens = lexer.tokens ∧ after.line = lexer.line := by
    unfold Lexer.bracket at hbracket
    grind
  exact h.of_eq hsame.1 hsame.2

theorem Ordered.closeTo (h : lexer.Ordered) {indents : List Indent}
    (hclose : lexer.closeTo indent indents = some after) : after.Ordered := by
  induction indents generalizing lexer with
  | nil =>
    rw [Lexer.closeTo] at hclose
    split at hclose <;> cases hclose
    exact h.of_eq rfl rfl
  | cons top below ih =>
    rw [Lexer.closeTo] at hclose
    split at hclose
    next => exact ih (h.push rfl) hclose
    next =>
      split at hclose <;> cases hclose
      exact h.of_eq rfl rfl

theorem Ordered.indentTo (h : lexer.Ordered) (hindent : lexer.indentTo indent = some after) :
    after.Ordered := by
  simp only [Lexer.indentTo] at hindent
  split at hindent
  next =>
    split at hindent <;> cases hindent
    have hopened : Ordered { lexer with indents := indent :: lexer.indents } := h.of_eq rfl rfl
    exact hopened.push rfl
  next => exact h.closeTo hindent

/-- **What the lexer reads stands in order.** -/
theorem Ordered.run (h : lexer.Ordered) {steps : Nat} {fresh : Bool}
    (hrun : run steps fresh lexer text = some tokens) : Lined tokens := by
  induction steps generalizing fresh lexer text with
  | zero => cases hrun
  | succ steps ih =>
    cases fresh with
    | true =>
      rw [Lexer.run] at hrun
      obtain ⟨⟨indent, lines, rest⟩, -, hrun⟩ := Option.bind_eq_some_iff.mp hrun
      have h := h.advance lines
      dsimp only at hrun
      split at hrun
      next =>
        split at hrun
        next =>
          obtain ⟨closed, hclosed, hrun⟩ := Option.bind_eq_some_iff.mp hrun
          obtain rfl := Option.some.inj hrun
          exact (h.closeTo hclosed).lined
        next => cases hrun
      next => exact ih (h.advance 1) hrun
      next => exact ih h hrun
      next =>
        split at hrun
        next =>
          obtain ⟨indented, hindented, hrun⟩ := Option.bind_eq_some_iff.mp hrun
          exact ih (h.indentTo hindented) hrun
        next => exact ih h hrun
    | false =>
      unfold Lexer.run at hrun
      split at hrun
      next => cases hrun
      next =>
        dsimp only at hrun
        split at hrun
        next => exact ih h.pushNewline hrun
        next => exact ih (h.advance 1) hrun
      next =>
        split at hrun
        next => cases hrun
        next => exact ih (h.advance 1) hrun
      next => exact ih h hrun
      next => exact ih h hrun
      next => exact ih h hrun
      next => exact ih h hrun
      next =>
        obtain ⟨⟨kind, rest⟩, htoken, hrun⟩ := Option.bind_eq_some_iff.mp hrun
        obtain ⟨bracketed, hbracketed, hrun⟩ := Option.bind_eq_some_iff.mp hrun
        have hpushed := h.push (isNewline_of_takeToken htoken)
        exact ih ((hpushed.bracket hbracketed).advance _) hrun

end Lexer

/-- **The tokens of a text stand in the order of its lines.** -/
theorem lined_of_lex {text : List Char} {tokens : List Token} (h : lex text = some tokens) :
    Lined tokens :=
  Lexer.ordered_start.run h

end ProviderRegistry.Syntax
