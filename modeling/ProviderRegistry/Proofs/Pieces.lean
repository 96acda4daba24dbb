import Mathlib.Data.List.Chain
import ProviderRegistry.Proofs.Quoting
import ProviderRegistry.Syntax.Lexer
import ProviderRegistry.Syntax.Tree

/-!
# Pieces of a line

A line of source text is written piece by piece: names, keywords, operators, literals, and blanks
between them. Where each piece ends is clear from the first character of the next one
(`Piece.precedes`), and so the lexer reads a piece as the token that it is
(`Piece.takeToken_chars`), whatever the text says that a literal is made of.
-/

namespace ProviderRegistry.Syntax

open Text

/-- What holds of the characters of a text is decided on the text, not on all the characters that
there are. -/
instance (priority := 1100) decidableForallMemText (text : List Char) (p : Char → Prop)
    [DecidablePred p] : Decidable (∀ c ∈ text, p c) := List.decidableBAll p text

/-- A part of a line. -/
inductive Piece where
  | blank
  | name (id : Identifier)
  | keyword (word : String)
  | op (symbol : String)
  /-- A text as its literal. -/
  | literal (text : List Char)
  /-- A text between three double quotes. -/
  | docstring (text : List Char)

namespace Piece

/-- How a piece is written. -/
def chars : Piece → List Char
  | blank => [' ']
  | name id => id.text.toList
  | keyword word => word.toList
  | op symbol => symbol.toList
  | literal text => quoteChars text
  | docstring text => '"' :: '"' :: '"' :: (text ++ ['"', '"', '"'])

/-- The token that a piece is, if it is no blank. -/
def kind? : Piece → Option Token.Kind
  | blank => none
  | name id => some (.name id)
  | keyword word => some (.keyword word)
  | op symbol => some (.op symbol)
  | literal text => some (.string (.text text))
  | docstring text => some (.string (.text text))

/-- What a piece says can be written as it is. -/
def IsPlain : Piece → Prop
  | name id => id.text ∉ keywords
  | keyword word => word ∈ keywords
  | op symbol => symbol.toList ∈ symbols
  | docstring text => ∀ c ∈ text, c ≠ '\\' ∧ c ≠ '"' ∧ 32 ≤ c.toNat
  | _ => True

instance : DecidablePred IsPlain
  | blank | literal _ => .isTrue trivial
  | name id => inferInstanceAs (Decidable (id.text ∉ keywords))
  | keyword word => inferInstanceAs (Decidable (word ∈ keywords))
  | op symbol => inferInstanceAs (Decidable (symbol.toList ∈ symbols))
  | docstring text =>
    inferInstanceAs (Decidable (∀ c ∈ text, c ≠ '\\' ∧ c ≠ '"' ∧ 32 ≤ c.toNat))

/-- The characters that make an operator longer. -/
def extending : List Char := ['*', '/', '>', '<', '.', '=']

/-- Whether a character is a quote mark. -/
def isQuote (c : Char) : Bool := c == '\'' || c == '"'

/-- Whether a piece has ended when a character follows. -/
def endsBefore : Piece → Char → Bool
  | name _, c => !isWordChar c && !isQuote c
  | keyword _, c => !isWordChar c && !isQuote c
  | op _, c => !extending.contains c && !c.isDigit
  | literal _, c => !isQuote c
  | _, _ => true

/-- Whether a piece may stand in front of another one. -/
def precedes : Piece → Piece → Bool
  | blank, _ | docstring _, _ => true
  | op _, op symbol => !symbol.toList.head?.any extending.contains
  | op _, _ => true
  | _, blank | _, op _ => true
  | _, _ => false

/-- A dotted name, piece by piece. -/
def dotted (n : DottedName) : List Piece :=
  name n.first :: n.rest.flatMap fun id => [op ".", name id]

/-! ## Characters -/

section

variable {c : Char}

theorem isWordChar_of_start (h : isIdentifierStart c = true) : isWordChar c = true := by
  rw [isIdentifierStart] at h
  rw [isWordChar]
  split at h
  next =>
    rw [Bool.or_eq_true, beq_iff_eq] at h
    rcases h with h | rfl
    · simp [Char.isAlphanum, h]
    · decide
  next hlarge => simp [Nat.le_of_not_lt hlarge]

theorem isWordChar_of_continue (h : isIdentifierContinue c = true) : isWordChar c = true := by
  rw [isIdentifierContinue] at h
  rw [isWordChar]
  split at h
  next => rw [h, Bool.true_or]
  next hlarge => simp [Nat.le_of_not_lt hlarge]

/-- No control character stands in a word. -/
theorem le_toNat_of_isWordChar (h : isWordChar c = true) : 32 ≤ c.toNat := by
  have hcontrol : ∀ n < 32, isWordChar (Char.ofNat n) = false := by decide
  by_contra hlt
  have hfalse := hcontrol c.toNat (by omega)
  rw [Char.ofNat_toNat, h] at hfalse
  cases hfalse

theorem isQuote_of_isWordChar (h : isWordChar c = true) : isQuote c = false := by
  rw [isQuote, Bool.or_eq_false_iff, beq_eq_false_iff_ne, beq_eq_false_iff_ne]
  constructor <;> rintro rfl <;> exact absurd h (by decide)

theorem not_isDigit_of_start (h : isIdentifierStart c = true) : c.isDigit = false := by
  rw [isIdentifierStart] at h
  by_contra hdigit
  rw [Bool.not_eq_false] at hdigit
  have hsmall : c.toNat < 128 := by
    simp only [Char.isDigit, Bool.and_eq_true, decide_eq_true_eq] at hdigit
    have hle : c.val ≤ 57 := hdigit.2
    have : c.toNat ≤ 57 := hle
    omega
  rw [if_pos hsmall, Bool.or_eq_true, beq_iff_eq] at h
  rcases h with h | rfl
  · simp only [Char.isAlpha, Char.isUpper, Char.isLower, Char.isDigit, Bool.or_eq_true,
      Bool.and_eq_true, decide_eq_true_eq] at h hdigit
    obtain ⟨-, hle⟩ := hdigit
    rcases h with ⟨h, -⟩ | ⟨h, -⟩
    · exact absurd (UInt32.le_trans h hle) (by decide)
    · exact absurd (UInt32.le_trans h hle) (by decide)
  · exact absurd hdigit (by decide)

end

end Piece

/-! ## Operators -/

theorem symbol_ne_nil : ∀ s ∈ symbols, s ≠ [] := by decide

theorem mem_tail_symbol : ∀ s ∈ symbols, ∀ c ∈ s.tail, c ∈ Piece.extending := by decide

theorem find?_symbols : ∀ s ∈ symbols, symbols.find? (·.isPrefixOf s) = some s := by decide

/-- No operator has a character that another sort of token starts with. -/
theorem of_mem_symbol : ∀ s ∈ symbols, ∀ c ∈ s, Piece.isQuote c = false ∧
    (({} : StringPrefix).extend? c).isNone = true ∧ isWordChar c = false ∧ c.isDigit = false := by
  decide

/-- An operator is found if what follows it does not make it longer. -/
theorem find?_symbols_append {s rest : List Char} (hs : s ∈ symbols)
    (hrest : ∀ c ∈ rest.head?, c ∉ Piece.extending) :
    symbols.find? (·.isPrefixOf (s ++ rest)) = some s := by
  have hsame : ∀ t ∈ symbols, t.isPrefixOf (s ++ rest) = t.isPrefixOf s := by
    intro t ht
    rw [Bool.eq_iff_iff, List.isPrefixOf_iff_prefix, List.isPrefixOf_iff_prefix]
    refine ⟨fun h => ?_, fun h => h.trans (List.prefix_append s rest)⟩
    rcases List.prefix_or_prefix_of_prefix h (List.prefix_append s rest) with hshort | ⟨u, rfl⟩
    · exact hshort
    · -- What is longer goes on with a character of the rest.
      cases u with
      | nil => simp
      | cons d more =>
        obtain ⟨c, s, rfl⟩ := List.exists_cons_of_ne_nil (symbol_ne_nil s hs)
        obtain ⟨more', hmore⟩ := (List.prefix_append_right_inj _).mp h
        have hd : d ∈ rest.head? := by rw [← hmore]; rfl
        exact absurd (mem_tail_symbol _ ht d (by simp)) (hrest d hd)
  rw [← List.head?_filter, List.filter_congr hsame, List.head?_filter]
  exact find?_symbols s hs

/-! ## Words -/

theorem Identifier.eq_of_text_eq {id id' : Identifier} (h : id.text = id'.text) : id = id' := by
  obtain ⟨text, _⟩ := id
  obtain ⟨text', _⟩ := id'
  obtain rfl : text = text' := h
  rfl

theorem Identifier.exists_cons (id : Identifier) : ∃ c more, id.text.toList = c :: more ∧
    isIdentifierStart c = true ∧ ∀ d ∈ c :: more, isWordChar d = true := by
  have h := id.isIdentifier
  unfold Text.isIdentifier at h
  split at h
  next => cases h
  next c more heq =>
    rw [Bool.and_eq_true, List.all_eq_true] at h
    refine ⟨c, more, heq, h.1, List.forall_mem_cons.mpr ⟨Piece.isWordChar_of_start h.1, ?_⟩⟩
    exact fun d hd => Piece.isWordChar_of_continue (h.2 d hd)

/-- Only letters stand in front of a literal. -/
theorem extend?_of_not_isWordChar {c : Char} (h : isWordChar c = false) (p : StringPrefix) :
    p.extend? c = none := by
  have hletters : ∀ d ∈ ['b', 'B', 'u', 'U', 'r', 'R', 'f', 'F'], isWordChar d = true := by decide
  have hne : ∀ d ∈ ['b', 'B', 'u', 'U', 'r', 'R', 'f', 'F'], c ≠ d := by
    rintro d hd rfl
    rw [hletters c hd] at h
    cases h
  simp only [List.forall_mem_cons] at hne
  simp [StringPrefix.extend?, hne]

/-- A word without a quote mark behind it starts no literal. -/
theorem takePrefix_word {word rest : List Char} (hword : ∀ c ∈ word, isWordChar c = true)
    (hrest : ∀ c ∈ rest.head?, isWordChar c = false ∧ Piece.isQuote c = false) (p : StringPrefix) :
    takePrefix p (word ++ rest) = none := by
  induction word generalizing p with
  | nil =>
    cases rest with
    | nil => rfl
    | cons c more =>
      obtain ⟨hc, hquote⟩ := hrest c rfl
      rw [Piece.isQuote, Bool.or_eq_false_iff, beq_eq_false_iff_ne, beq_eq_false_iff_ne] at hquote
      rw [List.nil_append, takePrefix, if_neg (by simp [hquote]), extend?_of_not_isWordChar hc]
  | cons c more ih =>
    rw [List.forall_mem_cons] at hword
    have hquote := Piece.isQuote_of_isWordChar hword.1
    rw [Piece.isQuote, Bool.or_eq_false_iff, beq_eq_false_iff_ne, beq_eq_false_iff_ne] at hquote
    rw [List.cons_append, takePrefix, if_neg (by simp [hquote])]
    split
    · exact ih hword.2 _
    · rfl

/-- A word is read as a whole. -/
theorem takeToken_word (id : Identifier) {rest : List Char}
    (hrest : ∀ c ∈ rest.head?, isWordChar c = false ∧ Piece.isQuote c = false) :
    takeToken (id.text.toList ++ rest) = some (.ofWord id, rest) := by
  obtain ⟨c, more, heq, hstart, hword⟩ := id.exists_cons
  have hstring : takeString? (id.text.toList ++ rest) = none := by
    rw [takeString?, heq, takePrefix_word hword hrest]
    rfl
  have hnone : rest.takeWhile isWordChar = [] := by
    cases rest with
    | nil => rfl
    | cons d after => rw [List.takeWhile_cons, (hrest d rfl).1]; rfl
  have htake : (id.text.toList ++ rest).takeWhile isWordChar = id.text.toList := by
    rw [heq, List.takeWhile_append_of_pos hword, hnone, List.append_nil]
  have hdrop : (id.text.toList ++ rest).dropWhile isWordChar = rest := by
    have hsplit := List.takeWhile_append_dropWhile (p := isWordChar) (l := id.text.toList ++ rest)
    rw [htake] at hsplit
    exact List.append_cancel_left hsplit
  have hdigit : c.isDigit = false := Piece.not_isDigit_of_start hstart
  have hdot : c ≠ '.' := by
    rintro rfl
    exact absurd hstart (by decide)
  have hwhole : Text.isIdentifier ((id.text.toList ++ rest).takeWhile isWordChar) = true := by
    rw [htake]
    exact id.isIdentifier
  have hsame : (⟨String.ofList ((id.text.toList ++ rest).takeWhile isWordChar),
      by rwa [String.toList_ofList]⟩ : Identifier) = id := by
    refine Identifier.eq_of_text_eq ?_
    simp only [htake, String.ofList_toList]
  rw [takeToken.eq_def, hstring]
  simp only [heq, List.cons_append] at hwhole hdrop hsame ⊢
  rw [if_neg (by simp [hdigit, hdot]), if_pos (hword c List.mem_cons_self), dif_pos hwhole, hsame,
    hdrop]

/-- An operator is read as a whole. -/
theorem takeToken_symbol {symbol : String} (hsymbol : symbol.toList ∈ symbols) {rest : List Char}
    (hrest : ∀ c ∈ rest.head?, c ∉ Piece.extending ∧ c.isDigit = false) :
    takeToken (symbol.toList ++ rest) = some (.op symbol, rest) := by
  have hfind := find?_symbols_append hsymbol fun c hc => (hrest c hc).1
  obtain ⟨c, more, heq⟩ := List.exists_cons_of_ne_nil (symbol_ne_nil _ hsymbol)
  have hchars := of_mem_symbol _ hsymbol
  rw [heq, List.forall_mem_cons] at hchars
  obtain ⟨⟨hquote, hletter, hword, hdigit⟩, hmore⟩ := hchars
  have hstring : takeString? (symbol.toList ++ rest) = none := by
    rw [Piece.isQuote, Bool.or_eq_false_iff, beq_eq_false_iff_ne, beq_eq_false_iff_ne] at hquote
    rw [takeString?, heq, List.cons_append, takePrefix, if_neg (by simp [hquote]),
      Option.isNone_iff_eq_none.mp hletter]
    rfl
  have hnumber : (c.isDigit || (c == '.' && (more ++ rest).head?.any (·.isDigit))) = false := by
    rw [hdigit, Bool.false_or, Bool.and_eq_false_iff]
    right
    cases more with
    | nil =>
      rw [List.nil_append]
      cases rest with
      | nil => rfl
      | cons d after => exact (hrest d rfl).2
    | cons d after => exact (hmore d List.mem_cons_self).2.2.2
  rw [takeToken.eq_def, hstring]
  simp only [heq, List.cons_append] at hfind ⊢
  rw [if_neg (by rw [hnumber]; exact Bool.false_ne_true), if_neg (by simp [hword]), hfind,
    Option.map_some, ← heq, String.ofList_toList, ← List.cons_append, ← heq, List.drop_left]

/-! ## Pieces -/

theorem isIdentifier_keyword : ∀ word ∈ keywords, Text.isIdentifier word.toList = true := by
  decide

namespace Piece

variable {p q : Piece} {kind : Token.Kind} {rest : List Char}

/-- **A piece is read as the token that it is.** -/
theorem takeToken_chars (hp : p.IsPlain) (hkind : p.kind? = some kind)
    (hrest : ∀ c ∈ rest.head?, p.endsBefore c = true) :
    takeToken (p.chars ++ rest) = some (kind, rest) := by
  cases p with
  | blank => cases hkind
  | name id =>
    obtain rfl := Option.some.inj hkind
    have hword := takeToken_word id fun c hc => by simpa [endsBefore] using hrest c hc
    have hname : Token.Kind.ofWord id = .name id := by
      rw [Token.Kind.ofWord, if_neg (by simpa [IsPlain] using hp)]
    rwa [hname] at hword
  | keyword word =>
    obtain rfl := Option.some.inj hkind
    have hword := takeToken_word ⟨word, isIdentifier_keyword word hp⟩ fun c hc => by
      simpa [endsBefore] using hrest c hc
    have hkeyword : Token.Kind.ofWord ⟨word, isIdentifier_keyword word hp⟩ = .keyword word := by
      rw [Token.Kind.ofWord, if_pos (by simpa [IsPlain] using hp)]
    rwa [hkeyword] at hword
  | op symbol =>
    obtain rfl := Option.some.inj hkind
    exact takeToken_symbol hp fun c hc => by simpa [endsBefore] using hrest c hc
  | literal text =>
    obtain rfl := Option.some.inj hkind
    have hmark : ∀ c ∈ rest.head?, c ≠ quoteMark text := by
      rintro c hc rfl
      have hends := hrest _ hc
      rcases quoteMark_cases text with h | h <;> rw [h] at hends <;> cases hends
    rw [takeToken.eq_def, chars, takeString?_quoteChars text hmark]
    rfl
  | docstring text =>
    obtain rfl := Option.some.inj hkind
    have htext := takeString?_tripled (fun c hc => ⟨(hp c hc).1, (hp c hc).2.1⟩) rest
    have hchars : (docstring text).chars ++ rest =
        '"' :: '"' :: '"' :: (text ++ '"' :: '"' :: '"' :: rest) := by
      simp [chars]
    rw [takeToken.eq_def, hchars, htext]
    rfl

/-- The characters that start no token. -/
def starting : List Char := ['\n', '\\', '#', ' ', '\t', '\x0c']

theorem exists_chars (hp : p.IsPlain) (hkind : p.kind? = some kind) :
    ∃ c more, p.chars = c :: more ∧ c ∉ starting := by
  have hsymbols : ∀ s ∈ symbols, ∀ c ∈ s, c ∉ starting := by decide
  have hwords : ∀ c ∈ starting, isWordChar c = false := by decide
  have hword (id : Identifier) : ∃ c more, id.text.toList = c :: more ∧ c ∉ starting := by
    obtain ⟨c, more, heq, hstart, -⟩ := id.exists_cons
    refine ⟨c, more, heq, fun hc => ?_⟩
    have hnone := hwords c hc
    rw [isWordChar_of_start hstart] at hnone
    cases hnone
  cases p with
  | blank => cases hkind
  | name id => exact hword id
  | keyword word => exact hword ⟨word, isIdentifier_keyword word hp⟩
  | op symbol =>
    obtain ⟨c, more, heq⟩ := List.exists_cons_of_ne_nil (symbol_ne_nil _ hp)
    exact ⟨c, more, heq, hsymbols _ hp c (heq ▸ List.mem_cons_self)⟩
  | literal text =>
    refine ⟨_, _, rfl, ?_⟩
    rcases quoteMark_cases text with h | h <;> rw [h] <;> decide
  | docstring text => exact ⟨_, _, rfl, by decide⟩

/-- A piece has ended where the next one starts. -/
theorem endsBefore_of_precedes (h : p.precedes q = true) (hq : q.IsPlain) :
    ∀ c ∈ q.chars.head?, p.endsBefore c = true := by
  have hmarks : ∀ c ∈ ['\'', '"'], c ∉ extending ∧ c.isDigit = false := by decide
  -- Behind an operator stands a word, or a quote mark.
  have hword (id : Identifier) : ∀ c ∈ id.text.toList.head?,
      c ∉ extending ∧ c.isDigit = false := by
    obtain ⟨d, more, heq, hstart, -⟩ := id.exists_cons
    have hnone : ∀ c ∈ extending, isWordChar c = false := by decide
    rw [heq]
    rintro c ⟨⟩
    refine ⟨fun hc => ?_, not_isDigit_of_start hstart⟩
    have hfalse := hnone _ hc
    rw [isWordChar_of_start hstart] at hfalse
    cases hfalse
  cases q with
  | blank =>
    rintro c ⟨⟩
    cases p <;> rfl
  | name id =>
    intro c hc
    cases p <;> first | rfl | simpa [endsBefore] using hword id c hc | cases h
  | keyword word =>
    intro c hc
    have hends := hword ⟨word, isIdentifier_keyword word hq⟩ c hc
    cases p <;> first | rfl | simpa [endsBefore] using hends | cases h
  | op symbol =>
    intro c hc
    obtain ⟨hquote, -, hword, hdigit⟩ := of_mem_symbol _ hq c (List.mem_of_mem_head? hc)
    cases p with
    | op symbol' =>
      have hlonger : symbol.toList.head? = some c := hc
      rw [precedes, hlonger] at h
      simpa [endsBefore, hdigit] using h
    | _ => first | rfl | simp [endsBefore, hquote, hword]
  | literal text =>
    rintro c ⟨⟩
    have hc := hmarks (quoteMark text) (by rcases quoteMark_cases text with h | h <;> simp [h])
    cases p <;> first | rfl | simpa [endsBefore] using hc | cases h
  | docstring text =>
    rintro c ⟨⟩
    have hc := hmarks '"' (by simp)
    cases p <;> first | rfl | simpa [endsBefore] using hc | cases h

/-- Nothing but a blank is no token. -/
theorem eq_blank_of_kind (hkind : p.kind? = none) : p = blank := by
  cases p <;> first | rfl | cases hkind

theorem chars_ne_nil (hp : p.IsPlain) : p.chars ≠ [] := by
  cases hkind : p.kind? with
  | none =>
    obtain rfl := eq_blank_of_kind hkind
    exact List.cons_ne_nil _ _
  | some kind =>
    obtain ⟨c, more, heq, -⟩ := exists_chars hp hkind
    rw [heq]
    exact List.cons_ne_nil c more

/-- No piece has control characters, and so none goes over the end of its line. -/
theorem le_toNat_of_mem_chars (hp : p.IsPlain) {c : Char} (hc : c ∈ p.chars) : 32 ≤ c.toNat := by
  have hword (id : Identifier) (h : c ∈ id.text.toList) : 32 ≤ c.toNat := by
    obtain ⟨d, more, heq, -, hword⟩ := id.exists_cons
    exact le_toNat_of_isWordChar (hword c (heq ▸ h))
  cases p with
  | blank =>
    obtain rfl := List.mem_singleton.mp hc
    decide
  | name id => exact hword id hc
  | keyword word => exact hword ⟨word, isIdentifier_keyword word hp⟩ hc
  | op symbol =>
    have hsymbols : ∀ s ∈ symbols, ∀ c ∈ s, 32 ≤ c.toNat := by decide
    exact hsymbols _ hp c hc
  | literal text => exact le_toNat_of_mem_quoteChars hc
  | docstring text =>
    simp only [chars, List.mem_cons, List.mem_append, List.not_mem_nil, or_false] at hc
    rcases hc with rfl | rfl | rfl | hc | rfl | rfl | rfl
    all_goals first | decide | exact (hp c hc).2.2

/-! ## Dotted names -/

variable {n : DottedName} {ps : List Piece}

theorem flatMap_dotted (n : DottedName) : (dotted n).flatMap chars = n.text.toList := by
  obtain ⟨first, rest⟩ := n
  rw [DottedName.text, joinDots, dotted]
  induction rest generalizing first with
  | nil => simp [chars, String.intercalate_singleton]
  | cons id rest ih =>
    rw [List.map_cons, List.map_cons, String.intercalate_cons_cons, String.toList_append,
      String.toList_append, ← List.map_cons, ← ih id]
    simp [chars]

theorem isPlain_dotted (hn : ∀ id ∈ n.first :: n.rest, id.text ∉ keywords) :
    ∀ p ∈ dotted n, p.IsPlain := by
  rw [List.forall_mem_cons] at hn
  refine List.forall_mem_cons.mpr ⟨hn.1, fun p hp => ?_⟩
  obtain ⟨id, hid, hp⟩ := List.mem_flatMap.mp hp
  rw [List.mem_pair] at hp
  rcases hp with rfl | rfl
  · have hpoint : ".".toList ∈ symbols := by decide
    exact hpoint
  · exact hn.2 id hid

/-- The tokens of a dotted name. -/
def dottedKinds (n : DottedName) : List Token.Kind :=
  .name n.first :: n.rest.flatMap fun id => [.op ".", .name id]

theorem filterMap_dotted (n : DottedName) : (dotted n).filterMap kind? = dottedKinds n := by
  obtain ⟨first, rest⟩ := n
  have hrest : (rest.flatMap fun id => [op ".", name id]).filterMap kind? =
      rest.flatMap fun id => [.op ".", .name id] := by
    rw [List.filterMap_flatMap]
    rfl
  exact congrArg (.name first :: ·) hrest

/-- A dotted name may stand where a name may. -/
theorem isChain_dotted (h : (name n.first :: ps).IsChain (·.precedes ·)) :
    (dotted n ++ ps).IsChain (·.precedes ·) := by
  obtain ⟨first, rest⟩ := n
  rw [dotted, List.cons_append]
  induction rest generalizing first with
  | nil => exact h
  | cons id rest ih =>
    have hid : (name id :: ps).IsChain (·.precedes ·) := by
      cases ps with
      | nil => exact .singleton _
      | cons q ps =>
        -- What follows a name does not depend on which name it is.
        obtain ⟨hq, hmore⟩ := List.isChain_cons_cons.mp h
        exact .cons_cons (by cases q <;> first | rfl | cases hq) hmore
    have hpoint : (op ".").precedes (name id) = true := rfl
    exact .cons_cons rfl (.cons_cons hpoint (ih id hid))

theorem isChain_append_dotted (before : List Piece) {after : List Piece}
    (h : (before ++ name n.first :: after).IsChain (·.precedes ·)) :
    (before ++ (dotted n ++ after)).IsChain (·.precedes ·) := by
  induction before with
  | nil => exact isChain_dotted h
  | cons p before ih =>
    obtain ⟨hp, hmore⟩ := List.isChain_cons.mp h
    refine List.isChain_cons.mpr ⟨?_, ih hmore⟩
    cases before with
    | nil => exact hp
    | cons q before => exact hp

/-- What a dotted name is made of can stand in a documentation. -/
theorem plain_text (n : DottedName) : (docstring n.text.toList).IsPlain := by
  intro c hc
  rw [← flatMap_dotted, dotted, List.flatMap_cons, List.mem_append] at hc
  have hword (id : Identifier) (h : c ∈ id.text.toList) : isWordChar c = true := by
    obtain ⟨d, more, heq, -, hword⟩ := id.exists_cons
    exact hword c (heq ▸ h)
  have hplain (h : isWordChar c = true) : c ≠ '\\' ∧ c ≠ '"' ∧ 32 ≤ c.toNat := by
    refine ⟨?_, ?_, le_toNat_of_isWordChar h⟩ <;> rintro rfl <;> exact absurd h (by decide)
  rcases hc with hc | hc
  · exact hplain (hword _ hc)
  · rw [List.flatMap_assoc, List.mem_flatMap] at hc
    obtain ⟨id, -, hc⟩ := hc
    have hpoint : c = '.' ∨ c ∈ id.text.toList := by simpa [chars] using hc
    rcases hpoint with rfl | hc
    · decide
    · exact hplain (hword id hc)

end Piece

/-- Tokens on one line. -/
def onLine (line : Nat) (kinds : List Token.Kind) : List Token := kinds.map (⟨·, line⟩)

end ProviderRegistry.Syntax
