import ProviderRegistry.Proofs.Lines
import ProviderRegistry.Proofs.Pieces

/-!
# Rows of a text

A text is written row by row: empty lines, comments, and phrases behind the blanks of their
indentation. `Lexer.Finds` says which tokens the lexer finds in a text from one of its states on;
there is one lemma for each sort of row. From them the tokens of all rows follow by induction
(`lex_rows`), provided that a phrase stands as deep as the one before it or deeper: what has been
indented ends with the text.
-/

namespace ProviderRegistry.Syntax

open Text

/-! ## What the lexer finds -/

namespace Lexer

/-- The brackets that are open after a token, if it may follow. -/
def nest (brackets : List Char) (kind : Token.Kind) : Option (List Char) :=
  (bracket { brackets } kind).map (·.brackets)

theorem bracket_eq (lexer : Lexer) (kind : Token.Kind) : lexer.bracket kind =
    (nest lexer.brackets kind).map fun brackets => { lexer with brackets } := by
  unfold nest bracket
  split
  · dsimp only
    split
    · split <;> rfl
    · split
      · split
        · rfl
        · split <;> rfl
      · rfl
  · rfl

/-- Which tokens the lexer finds in a text, from a state on and whatever it has found before. -/
def Finds (fresh : Bool) (line : Nat) (indents : List Indent) (brackets text : List Char)
    (tokens : List Token) : Prop :=
  ∀ found steps, 2 * text.length + fresh.toNat ≤ steps →
    run steps fresh ⟨line, indents, brackets, found⟩ text = some (found.reverse ++ tokens)

variable {fresh : Bool} {line : Nat} {indents : List Indent} {brackets brackets' : List Char}
  {text rest : List Char} {tokens : List Token} {p : Piece} {kind : Token.Kind}

theorem lex_of_finds (htext : text.getLast? = some '\n') (h : Finds true 1 [] [] text tokens) :
    lex text = some tokens := by
  have hrun := h [] (2 * text.length + 1) (Nat.le_refl _)
  rwa [lex, withFinalNewline, if_pos htext]

/-- Within a line, a token is read where one starts. -/
theorem run_of_notMem {c : Char} (hc : c ∉ Piece.starting) (steps : Nat) (lexer : Lexer)
    (more : List Char) :
    run (steps + 1) false lexer (c :: more) = (takeToken (c :: more)).bind fun (kind, rest) =>
      ((lexer.push kind).bracket kind).bind fun lexer =>
        run steps false (lexer.advance (match kind with
          | .string _ => ((c :: more).take ((c :: more).length - rest.length)).count '\n'
          | _ => 0)) rest := by
  have hne : ∀ d ∈ Piece.starting, c ≠ d := fun d hd h => hc (h ▸ hd)
  simp only [Piece.starting, List.forall_mem_cons] at hne
  rw [run]
  · rfl
  all_goals simp [hne]

/-- A token in front of a text. -/
theorem Finds.token (h : Finds false line indents brackets' rest tokens) (hp : p.IsPlain)
    (hkind : p.kind? = some kind) (hrest : ∀ c ∈ rest.head?, p.endsBefore c = true)
    (hnest : nest brackets kind = some brackets') :
    Finds false line indents brackets (p.chars ++ rest) (⟨kind, line⟩ :: tokens) := by
  intro found steps hsteps
  have htake := Piece.takeToken_chars hp hkind hrest
  have hconsumed : ((p.chars ++ rest).take ((p.chars ++ rest).length - rest.length)).count '\n' =
      0 := by
    rw [List.length_append, Nat.add_sub_cancel, List.take_left]
    exact List.count_eq_zero.mpr fun h => absurd (Piece.le_toNat_of_mem_chars hp h) (by decide)
  obtain ⟨c, more, heq, hc⟩ := Piece.exists_chars hp hkind
  have hlength : (p.chars ++ rest).length = more.length + 1 + rest.length := by
    rw [heq, List.length_append, List.length_cons]
  obtain ⟨steps, rfl⟩ : ∃ n, steps = n + 1 := Nat.exists_eq_succ_of_ne_zero (by omega)
  have hrun := h (⟨kind, line⟩ :: found) steps (by simp only [Bool.toNat_false]; omega)
  rw [List.reverse_cons, List.append_assoc, List.singleton_append] at hrun
  rw [heq, List.cons_append] at htake hconsumed ⊢
  rw [run_of_notMem hc, htake, Option.bind_some, ← hrun]
  simp only [bracket_eq, push, hnest, Option.map_some, Option.bind_some, advance]
  -- No token goes over the end of its line, not even a literal.
  cases kind <;> first | rfl | rw [hconsumed]; rfl

/-- A blank inside a line. -/
theorem Finds.blank (h : Finds false line indents brackets rest tokens) :
    Finds false line indents brackets (' ' :: rest) tokens := by
  intro found steps hsteps
  rw [List.length_cons] at hsteps
  obtain ⟨steps, rfl⟩ : ∃ n, steps = n + 1 := Nat.exists_eq_succ_of_ne_zero (by omega)
  exact h found steps (by omega)

/-! ## Whole lines -/

/-- The brackets that are open after pieces, if they may follow one another. -/
def nestAll : List Char → List Piece → Option (List Char)
  | brackets, [] => some brackets
  | brackets, .op symbol :: ps => (nest brackets (.op symbol)).bind (nestAll · ps)
  | brackets, _ :: ps => nestAll brackets ps

theorem nestAll_cons_of_kind {ps : List Piece} (hkind : p.kind? = some kind) :
    nestAll brackets (p :: ps) = (nest brackets kind).bind (nestAll · ps) := by
  cases p <;> cases hkind <;> rfl

theorem nestAll_append (ps qs : List Piece) :
    nestAll brackets (ps ++ qs) = (nestAll brackets ps).bind (nestAll · qs) := by
  induction ps generalizing brackets with
  | nil => rfl
  | cons p ps ih =>
    rw [List.cons_append]
    cases hkind : p.kind? with
    | none =>
      obtain rfl := Piece.eq_blank_of_kind hkind
      exact ih
    | some kind =>
      rw [nestAll_cons_of_kind hkind, nestAll_cons_of_kind hkind, Option.bind_assoc]
      exact Option.bind_congr fun _ _ => ih

/-- A dotted name opens and closes no brackets. -/
theorem nestAll_dotted (n : DottedName) (ps : List Piece) :
    nestAll brackets (Piece.dotted n ++ ps) = nestAll brackets ps := by
  obtain ⟨first, rest⟩ := n
  have hrest : nestAll brackets ((rest.flatMap fun id => [.op ".", .name id]) ++ ps) =
      nestAll brackets ps := by
    induction rest with
    | nil => rfl
    | cons id rest ih => exact ih
  exact hrest

/-- Pieces that may stand side by side are read one by one. -/
theorem Finds.pieces (h : Finds false line indents brackets' ('\n' :: rest) tokens)
    {ps : List Piece} (hplain : ∀ p ∈ ps, p.IsPlain) (hchain : ps.IsChain (·.precedes ·))
    (hnest : nestAll brackets ps = some brackets') :
    Finds false line indents brackets (ps.flatMap Piece.chars ++ '\n' :: rest)
      (onLine line (ps.filterMap Piece.kind?) ++ tokens) := by
  induction ps generalizing brackets with
  | nil =>
    obtain rfl := Option.some.inj hnest
    exact h
  | cons p ps ih =>
    obtain ⟨hp, hps⟩ := List.forall_mem_cons.mp hplain
    obtain ⟨hnext, hmore⟩ := List.isChain_cons.mp hchain
    rw [List.flatMap_cons, List.append_assoc]
    cases hkind : p.kind? with
    | none =>
      obtain rfl := Piece.eq_blank_of_kind hkind
      exact (ih hps hmore hnest).blank
    | some kind =>
      rw [nestAll_cons_of_kind hkind] at hnest
      obtain ⟨between, hkindnest, hnest⟩ := Option.bind_eq_some_iff.mp hnest
      rw [List.filterMap_cons_some hkind]
      refine (ih hps hmore hnest).token hp hkind ?_ hkindnest
      -- What comes next is the next piece, or the end of the line.
      cases ps with
      | nil =>
        rintro c ⟨⟩
        cases p <;> rfl
      | cons q ps =>
        have hq := hps q List.mem_cons_self
        rw [List.flatMap_cons, List.append_assoc,
          List.head?_append_of_ne_nil _ (Piece.chars_ne_nil hq)]
        exact Piece.endsBefore_of_precedes (hnext q rfl) hq

theorem Finds.newline (h : Finds true (line + 1) indents [] rest tokens) :
    Finds false line indents [] ('\n' :: rest) (⟨.newline, line⟩ :: tokens) := by
  intro found steps hsteps
  rw [List.length_cons] at hsteps
  obtain ⟨steps, rfl⟩ : ∃ n, steps = n + 1 := Nat.exists_eq_succ_of_ne_zero (by omega)
  have hrun := h (⟨.newline, line⟩ :: found) steps (by simp only [Bool.toNat_true]; omega)
  rwa [List.reverse_cons, List.append_assoc, List.singleton_append] at hrun

/-- An empty line. -/
theorem Finds.emptyLine (h : Finds true (line + 1) indents brackets rest tokens) :
    Finds true line indents brackets ('\n' :: rest) tokens := by
  intro found steps hsteps
  rw [List.length_cons, Bool.toNat_true] at hsteps
  obtain ⟨steps, rfl⟩ : ∃ n, steps = n + 1 := Nat.exists_eq_succ_of_ne_zero (by omega)
  exact h found steps (by simp only [Bool.toNat_true]; omega)

/-- A comment is passed over, with the end of its line. -/
theorem run_comment (htext : '\n' ∉ text) (steps : Nat) (lexer : Lexer) (rest : List Char) :
    run (steps + 2) true lexer ('#' :: (text ++ '\n' :: rest)) =
      run steps true (lexer.advance 1) rest := by
  have hdrop : (text ++ '\n' :: rest).dropWhile (· != '\n') = '\n' :: rest := by
    rw [List.dropWhile_append_of_pos fun c hc => bne_iff_ne.mpr (ne_of_mem_of_not_mem hc htext)]
    rfl
  have hindent : takeIndent {} 0 0 ('#' :: (text ++ '\n' :: rest)) =
      some ({}, 0, '#' :: (text ++ '\n' :: rest)) := rfl
  rw [run, hindent]
  simp only [Option.bind_eq_bind, Option.bind_some, hdrop]
  rfl

/-- A line that is nothing but a comment, which may say anything that goes on no further than the
line. -/
theorem Finds.comment (h : Finds true (line + 1) indents brackets rest tokens)
    (htext : '\n' ∉ text) :
    Finds true line indents brackets ('#' :: (text ++ '\n' :: rest)) tokens := by
  intro found steps hsteps
  simp only [List.length_cons, List.length_append, Bool.toNat_true] at hsteps
  obtain ⟨steps, rfl⟩ : ∃ n, steps = n + 2 := Nat.exists_eq_add_of_le' (by omega)
  rw [run_comment htext]
  exact h found steps (by rw [Bool.toNat_true]; omega)

/-- Blanks at the start of a line are its indentation. -/
theorem takeIndent_replicate {c : Char} (hc : c ∉ Piece.starting) (more : List Char) (n : Nat) :
    ∀ m, takeIndent ⟨m, m⟩ 0 0 (List.replicate n ' ' ++ c :: more) =
      some (⟨m + n, m + n⟩, 0, c :: more) := by
  have hne : ∀ d ∈ Piece.starting, c ≠ d := fun d hd h => hc (h ▸ hd)
  simp only [Piece.starting, List.forall_mem_cons] at hne
  induction n with
  | zero =>
    intro m
    rw [List.replicate_zero, List.nil_append, takeIndent.eq_def]
    simp [hne]
  | succ n ih =>
    intro m
    rw [List.replicate_succ, List.cons_append, takeIndent, ih, Nat.add_right_comm m 1 n]
    rfl

/-- A line without open brackets that starts with a token. -/
theorem run_fresh {c : Char} (hc : c ∉ Piece.starting) (n steps : Nat) (found : List Token)
    (more : List Char) :
    run (steps + 1) true ⟨line, indents, [], found⟩ (List.replicate n ' ' ++ c :: more) =
      ((⟨line, indents, [], found⟩ : Lexer).indentTo ⟨n, n⟩).bind
        fun lexer => run steps false lexer (c :: more) := by
  have hindent := takeIndent_replicate hc more n 0
  rw [Nat.zero_add] at hindent
  have hne : ∀ d ∈ Piece.starting, c ≠ d := fun d hd h => hc (h ▸ hd)
  simp only [Piece.starting, List.forall_mem_cons] at hne
  rw [run, hindent]
  simp [hne, advance]

/-- A line as deep as the ones around it. -/
theorem Finds.sameDepth {c : Char} {more : List Char}
    (h : Finds false line indents [] (c :: more) tokens) (hc : c ∉ Piece.starting) {n : Nat}
    (hindents : indents.headD {} = ⟨n, n⟩) :
    Finds true line indents [] (List.replicate n ' ' ++ c :: more) tokens := by
  intro found steps hsteps
  rw [List.length_append, Bool.toNat_true] at hsteps
  obtain ⟨steps, rfl⟩ : ∃ n, steps = n + 1 := Nat.exists_eq_succ_of_ne_zero (by omega)
  have hsame : (⟨line, indents, [], found⟩ : Lexer).indentTo ⟨n, n⟩ =
      some ⟨line, indents, [], found⟩ := by
    rw [indentTo, hindents]
    simp only [Nat.lt_irrefl, if_false]
    cases indents with
    | nil =>
      have hmargin : ({} : Indent) = ⟨n, n⟩ := hindents
      rw [closeTo, if_pos hmargin.symm]
    | cons top below =>
      obtain rfl : top = ⟨n, n⟩ := hindents
      simp [closeTo]
  rw [run_fresh hc, hsame, Option.bind_some]
  exact h found steps (by rw [Bool.toNat_false]; omega)

/-- A line deeper than the one before. -/
theorem Finds.deeper {c : Char} {more : List Char} {m n : Nat}
    (h : Finds false line (⟨n, n⟩ :: indents) [] (c :: more) tokens) (hc : c ∉ Piece.starting)
    (hindents : indents.headD {} = ⟨m, m⟩) (hdeeper : m < n)
    (hfew : indents.length + 1 < maxIndents) :
    Finds true line indents [] (List.replicate n ' ' ++ c :: more)
      (⟨.indent, line⟩ :: tokens) := by
  intro found steps hsteps
  rw [List.length_append, Bool.toNat_true] at hsteps
  obtain ⟨steps, rfl⟩ : ∃ n, steps = n + 1 := Nat.exists_eq_succ_of_ne_zero (by omega)
  have hmore : (⟨line, indents, [], found⟩ : Lexer).indentTo ⟨n, n⟩ =
      some ⟨line, ⟨n, n⟩ :: indents, [], ⟨.indent, line⟩ :: found⟩ := by
    rw [indentTo, hindents]
    simp only [if_pos hdeeper]
    rw [if_neg (by simp; omega)]
    rfl
  have hrun := h (⟨.indent, line⟩ :: found) steps (by rw [Bool.toNat_false]; omega)
  rw [List.reverse_cons, List.append_assoc, List.singleton_append] at hrun
  rwa [run_fresh hc, hmore, Option.bind_some]

/-- Indentations that are open at the end of the text end there. -/
theorem Finds.ended (line : Nat) (hindents : ∀ indent ∈ indents, 0 < indent.wide) :
    Finds true line indents [] [] (indents.map fun _ => ⟨.dedent, line⟩) := by
  intro found steps hsteps
  obtain ⟨steps, rfl⟩ : ∃ n, steps = n + 1 :=
    Nat.exists_eq_succ_of_ne_zero (by rw [Bool.toNat_true] at hsteps; omega)
  have hclose : ∀ found all, ∃ lexer,
      (⟨line, all, [], found⟩ : Lexer).closeTo {} indents = some lexer ∧
      lexer.tokens.reverse = found.reverse ++ indents.map fun _ => ⟨.dedent, line⟩ := by
    induction indents with
    | nil => exact fun found all => ⟨_, rfl, by simp⟩
    | cons top below ih =>
      intro found all
      obtain ⟨htop, hbelow⟩ := List.forall_mem_cons.mp hindents
      obtain ⟨lexer, hclose, htokens⟩ := ih hbelow (⟨.dedent, line⟩ :: found) all
      refine ⟨lexer, ?_, by rw [htokens]; simp⟩
      rw [closeTo, if_pos htop]
      exact hclose
  obtain ⟨lexer, hclose, htokens⟩ := hclose found indents
  rw [run]
  simp only [takeIndent, Option.pure_def, Option.bind_eq_bind, Option.bind_some, if_true,
    advance, Nat.add_zero, List.isEmpty_nil, hclose, htokens]

end Lexer

/-! ## Rows -/

/-- A line of a text. -/
inductive Row where
  | empty
  | comment (text : List Char)
  /-- Pieces behind a number of blanks. -/
  | phrase (depth : Nat) (ps : List Piece)

/-- Pieces that can stand on a line of their own. -/
structure IsPhrase (ps : List Piece) : Prop where
  plain : ∀ p ∈ ps, p.IsPlain
  chain : ps.IsChain (·.precedes ·)
  closed : Lexer.nestAll [] ps = some []
  /-- The first piece is a token. -/
  starts : ∃ p ∈ ps.head?, p.kind?.isSome

namespace Row

/-- How a row is written. -/
def chars : Row → List Char
  | empty => []
  | comment text => '#' :: text
  | phrase depth ps => List.replicate depth ' ' ++ ps.flatMap Piece.chars

/-- The rows can follow where the indentations `depths` are open, innermost first. A deeper row is
deeper by two blanks or more, so that there are not more tokens than characters. -/
inductive Fit : (depths : List Nat) → List Row → Prop where
  | done {depths : List Nat} : Fit depths []
  | empty {depths : List Nat} {rows : List Row} (h : Fit depths rows) : Fit depths (empty :: rows)
  | comment {depths : List Nat} {text : List Char} {rows : List Row} (htext : '\n' ∉ text)
    (h : Fit depths rows) : Fit depths (comment text :: rows)
  | same {depths : List Nat} {depth : Nat} {ps : List Piece} {rows : List Row} (hps : IsPhrase ps)
    (hdepth : depth = depths.headD 0) (h : Fit depths rows) : Fit depths (phrase depth ps :: rows)
  | deeper {depths : List Nat} {depth : Nat} {ps : List Piece} {rows : List Row} (hps : IsPhrase ps)
    (hdepth : depths.headD 0 + 1 < depth) (hfew : depths.length + 1 < maxIndents)
    (h : Fit (depth :: depths) rows) : Fit depths (phrase depth ps :: rows)

/-- The tokens of rows from a line on. -/
def tokens (line : Nat) : (depths : List Nat) → List Row → List Token
  | depths, [] => depths.map fun _ => ⟨.dedent, line⟩
  | depths, empty :: rows => tokens (line + 1) depths rows
  | depths, comment _ :: rows => tokens (line + 1) depths rows
  | depths, phrase depth ps :: rows =>
    if depth = depths.headD 0 then
      onLine line (ps.filterMap Piece.kind?) ++ ⟨.newline, line⟩ :: tokens (line + 1) depths rows
    else ⟨.indent, line⟩ :: (onLine line (ps.filterMap Piece.kind?) ++
      ⟨.newline, line⟩ :: tokens (line + 1) (depth :: depths) rows)

/-- The indentation that a number of blanks makes. -/
def indent (depth : Nat) : Indent := ⟨depth, depth⟩

theorem headD_indents (depths : List Nat) :
    (depths.map indent).headD {} = indent (depths.headD 0) := by
  cases depths <;> rfl

end Row

namespace IsPhrase

open Lexer

variable {ps : List Piece} {line depth : Nat} {indents : List Indent} {rest : List Char}
  {tokens : List Token}

/-- Where a name stands in a phrase, a dotted name may stand. -/
theorem insert_dotted (before : List Piece) {n : DottedName}
    (hn : ∀ id ∈ n.first :: n.rest, id.text ∉ keywords) {first : Piece} {after : List Piece}
    (h : IsPhrase (first :: (before ++ .name n.first :: after))) :
    IsPhrase (first :: (before ++ (Piece.dotted n ++ after))) where
  plain := by
    have hplain := h.plain
    rw [List.forall_mem_cons, List.forall_mem_append, List.forall_mem_cons] at hplain
    rw [List.forall_mem_cons, List.forall_mem_append, List.forall_mem_append]
    exact ⟨hplain.1, hplain.2.1, Piece.isPlain_dotted hn, hplain.2.2.2⟩
  chain := Piece.isChain_append_dotted (first :: before) h.chain
  closed := by
    have hclosed := h.closed
    rw [← List.cons_append, nestAll_append] at hclosed ⊢
    simp only [nestAll_dotted]
    exact hclosed
  starts := h.starts

theorem exists_chars (h : IsPhrase ps) (rest : List Char) :
    ∃ c more, ps.flatMap Piece.chars ++ rest = c :: more ∧ c ∉ Piece.starting := by
  obtain ⟨p, hp, hkind⟩ := h.starts
  obtain ⟨ps, rfl⟩ := List.head?_eq_some_iff.mp hp
  obtain ⟨kind, hkind⟩ := Option.isSome_iff_exists.mp hkind
  obtain ⟨c, more, heq, hc⟩ := Piece.exists_chars (h.plain p List.mem_cons_self) hkind
  exact ⟨c, more ++ (ps.flatMap Piece.chars ++ rest), by simp [heq], hc⟩

/-- A phrase as deep as the one before it. -/
theorem finds_sameDepth (h : IsPhrase ps) (hindents : indents.headD {} = Row.indent depth)
    (hrest : Finds true (line + 1) indents [] rest tokens) :
    Finds true line indents [] ((Row.phrase depth ps).chars ++ '\n' :: rest)
      (onLine line (ps.filterMap Piece.kind?) ++ ⟨.newline, line⟩ :: tokens) := by
  have hfinds := hrest.newline.pieces h.plain h.chain h.closed
  obtain ⟨c, more, heq, hc⟩ := h.exists_chars ('\n' :: rest)
  rw [Row.chars, List.append_assoc]
  rw [heq] at hfinds ⊢
  exact hfinds.sameDepth hc hindents

/-- A phrase deeper than the one before it. -/
theorem finds_deeper (h : IsPhrase ps) {outer : Nat}
    (hindents : indents.headD {} = Row.indent outer) (hdeeper : outer < depth)
    (hfew : indents.length + 1 < maxIndents)
    (hrest : Finds true (line + 1) (Row.indent depth :: indents) [] rest tokens) :
    Finds true line indents [] ((Row.phrase depth ps).chars ++ '\n' :: rest) (⟨.indent, line⟩ ::
      (onLine line (ps.filterMap Piece.kind?) ++ ⟨.newline, line⟩ :: tokens)) := by
  have hfinds := hrest.newline.pieces h.plain h.chain h.closed
  obtain ⟨c, more, heq, hc⟩ := h.exists_chars ('\n' :: rest)
  rw [Row.chars, List.append_assoc]
  rw [heq] at hfinds ⊢
  exact hfinds.deeper hc hindents hdeeper hfew

end IsPhrase

namespace Row

open Lexer

variable {depths : List Nat} {rows : List Row} {line : Nat}

/-- **Rows are read as their tokens.** By induction on the rows, with the indentations that are
open. -/
theorem Fit.finds (h : Fit depths rows) (hdepths : ∀ depth ∈ depths, 0 < depth) (line : Nat) :
    Finds true line (depths.map indent) [] (unlines (rows.map chars))
      (tokens line depths rows) := by
  induction h generalizing line with
  | @done depths =>
    have hindents : ∀ i ∈ depths.map indent, 0 < i.wide := by simpa [indent] using hdepths
    have hended := Finds.ended line hindents
    rwa [List.map_map] at hended
  | empty _ ih =>
    rw [List.map_cons, unlines_cons]
    exact (ih hdepths (line + 1)).emptyLine
  | comment htext _ ih =>
    rw [List.map_cons, unlines_cons]
    exact (ih hdepths (line + 1)).comment htext
  | @same depths depth ps rows hps hdepth _ ih =>
    rw [List.map_cons, unlines_cons, tokens, if_pos hdepth]
    exact hps.finds_sameDepth (hdepth ▸ headD_indents depths) (ih hdepths (line + 1))
  | @deeper depths depth ps rows hps hdepth hfew _ ih =>
    have hmore := ih (List.forall_mem_cons.mpr ⟨by omega, hdepths⟩) (line + 1)
    rw [List.map_cons, unlines_cons, tokens, if_neg (by omega)]
    exact hps.finds_deeper (headD_indents depths) (by omega) (by simpa using hfew) hmore

theorem length_kinds_le {ps : List Piece} (hplain : ∀ p ∈ ps, p.IsPlain) :
    (ps.filterMap Piece.kind?).length ≤ (ps.flatMap Piece.chars).length := by
  induction ps with
  | nil => exact Nat.le_refl _
  | cons p ps ih =>
    obtain ⟨hp, hps⟩ := List.forall_mem_cons.mp hplain
    have hchars := List.length_pos_iff.mpr (Piece.chars_ne_nil hp)
    have hmore := ih hps
    have hkinds := List.length_filterMap_le Piece.kind? [p]
    rw [← List.singleton_append, List.filterMap_append, List.flatMap_append, List.length_append,
      List.length_append, List.flatMap_singleton]
    rw [List.length_singleton] at hkinds
    omega

/-- There are no more tokens than characters. -/
theorem Fit.length_tokens_le (h : Fit depths rows) (line : Nat) :
    (tokens line depths rows).length ≤ (unlines (rows.map chars)).length + depths.length := by
  induction h generalizing line with
  | done => simp [tokens]
  | empty _ ih =>
    rw [List.map_cons, unlines_cons, List.length_append, List.length_cons]
    exact (ih (line + 1)).trans (by omega)
  | comment _ _ ih =>
    rw [List.map_cons, unlines_cons, List.length_append, List.length_cons]
    exact (ih (line + 1)).trans (by omega)
  | same hps hdepth _ ih =>
    have hkinds := length_kinds_le hps.plain
    have hmore := ih (line + 1)
    rw [List.map_cons, unlines_cons, tokens, if_pos hdepth, onLine]
    simp only [chars, List.length_append, List.length_cons, List.length_map, List.length_replicate]
    omega
  | deeper hps hdepth _ _ ih =>
    have hkinds := length_kinds_le hps.plain
    have hmore := ih (line + 1)
    rw [List.map_cons, unlines_cons, tokens, if_neg (by omega), onLine]
    simp only [chars, List.length_append, List.length_cons, List.length_map,
      List.length_replicate] at hmore ⊢
    omega

theorem le_toNat_of_mem_phrase {depth : Nat} {ps : List Piece} (h : IsPhrase ps) {c : Char}
    (hc : c ∈ (phrase depth ps).chars) : 32 ≤ c.toNat := by
  rcases List.mem_append.mp hc with hc | hc
  · rw [List.eq_of_mem_replicate hc]
    decide
  · obtain ⟨p, hp, hc⟩ := List.mem_flatMap.mp hc
    exact Piece.le_toNat_of_mem_chars (h.plain p hp) hc

/-- Control characters stand in comments only, other than the ends of the lines. -/
theorem Fit.le_toNat (h : Fit depths rows) {c : Char} (hc : c ∈ unlines (rows.map chars)) :
    c = '\n' ∨ 32 ≤ c.toNat ∨ ∃ text, Row.comment text ∈ rows ∧ c ∈ text := by
  have hcons {row : Row} {rows : List Row} (hrow : c ∈ row.chars → 32 ≤ c.toNat ∨
        ∃ text, Row.comment text ∈ row :: rows ∧ c ∈ text)
      (ih : c ∈ unlines (rows.map chars) →
        c = '\n' ∨ 32 ≤ c.toNat ∨ ∃ text, Row.comment text ∈ rows ∧ c ∈ text)
      (hc : c ∈ unlines ((row :: rows).map chars)) :
      c = '\n' ∨ 32 ≤ c.toNat ∨ ∃ text, Row.comment text ∈ row :: rows ∧ c ∈ text := by
    rw [List.map_cons, unlines_cons, List.mem_append, List.mem_cons] at hc
    rcases hc with hc | hc | hc
    · exact .inr (hrow hc)
    · exact .inl hc
    · exact (ih hc).imp_right
        (.imp_right fun ⟨text, hmem, hc⟩ => ⟨text, List.mem_cons_of_mem _ hmem, hc⟩)
  induction h with
  | done => cases hc
  | empty _ ih => exact hcons (fun hc => nomatch hc) ih hc
  | @comment _ text _ htext _ ih =>
    refine hcons (fun hc => ?_) ih hc
    rcases List.mem_cons.mp hc with rfl | hc
    · exact .inl (by decide)
    · exact .inr ⟨text, List.mem_cons_self, hc⟩
  | same hps _ _ ih => exact hcons (fun hc => .inl (le_toNat_of_mem_phrase hps hc)) ih hc
  | deeper hps _ _ _ ih => exact hcons (fun hc => .inl (le_toNat_of_mem_phrase hps hc)) ih hc

end Row

/-- **A text of rows has their tokens.** -/
theorem lex_rows {rows : List Row} (h : Row.Fit [] rows) (hrows : rows ≠ []) :
    lex (unlines (rows.map Row.chars)) = some (Row.tokens 1 [] rows) := by
  refine Lexer.lex_of_finds ?_ (h.finds (List.forall_mem_nil _) 1)
  obtain ⟨init, last, rfl⟩ := (List.eq_nil_or_concat rows).resolve_left hrows
  simp [unlines]

/-- A text has no tokens if a bracket behind a comment closes none. -/
theorem lex_closing {comment rest : List Char} (hcomment : '\n' ∉ comment) :
    lex ('#' :: (comment ++ '\n' :: ')' :: rest)) = none := by
  obtain ⟨rest', hends⟩ : ∃ rest', withFinalNewline ('#' :: (comment ++ '\n' :: ')' :: rest)) =
      '#' :: (comment ++ '\n' :: ')' :: rest') := by
    rw [withFinalNewline]
    split
    · exact ⟨rest, rfl⟩
    · exact ⟨rest ++ ['\n'], by simp⟩
  have hlength : ('#' :: (comment ++ '\n' :: ')' :: rest')).length =
      comment.length + rest'.length + 3 := by
    simp only [List.length_cons, List.length_append]
    omega
  obtain ⟨steps, hsteps⟩ : ∃ n, 2 * (comment.length + rest'.length + 3) + 1 = n + 2 + 2 :=
    ⟨2 * (comment.length + rest'.length) + 3, by omega⟩
  have hbracket : ')' ∉ Piece.starting := by decide
  have hfresh : Lexer.run (steps + 2) true ⟨2, [], [], []⟩ (')' :: rest') =
      Lexer.run (steps + 1) false ⟨2, [], [], []⟩ (')' :: rest') :=
    Lexer.run_fresh hbracket 0 (steps + 1) [] rest'
  rw [lex, hends, hlength, hsteps, Lexer.run_comment hcomment]
  refine hfresh.trans ?_
  rw [Lexer.run_of_notMem hbracket]
  rfl

end ProviderRegistry.Syntax
