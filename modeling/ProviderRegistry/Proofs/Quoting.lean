import Mathlib
import ProviderRegistry.Syntax.StringLiteral
import ProviderRegistry.Text.Quoted

/-!
# Quoted text is read back

The literal of a text has the text for its value (`takeString?_quoteChars`), whatever characters
the text has: every one of them is written as itself or as an escape that means it, and none of
them is the mark that ends the literal or a line end. A text between three double quotes is read
back if it has no quotes and no backslashes (`takeString?_tripled`).
-/

namespace ProviderRegistry

namespace Text

/-! ## Digits -/

theorem length_hexDigits (width n : Nat) : (hexDigits width n).length = width := by
  induction width generalizing n with
  | zero => rfl
  | succ width ih => rw [hexDigits, List.length_append, ih, List.length_singleton]

theorem forall_mem_hexDigits {P : Char → Prop} (h : ∀ d < 16, P (Nat.digitChar d))
    (width n : Nat) : ∀ c ∈ hexDigits width n, P c := by
  induction width generalizing n with
  | zero => exact List.forall_mem_nil _
  | succ width ih =>
    rw [hexDigits, List.forall_mem_append]
    exact ⟨ih _, List.forall_mem_singleton.mpr (h _ (Nat.mod_lt _ (by decide)))⟩

/-! ## Characters of a literal -/

theorem toNat_lt (c : Char) : c.toNat < 0x110000 := by
  have hvalid : c.toNat < 0xd800 ∨ 0xdfff < c.toNat ∧ c.toNat < 0x110000 := c.valid
  omega

/-- How a character is written between quote marks: as itself, or as an escape. -/
theorem escapeChar_cases (mark c : Char) :
    (escapeChar mark c = [c] ∧ c ≠ mark ∧ c ≠ '\\' ∧ isPrintable c = true) ∨
      (escapeChar mark c = ['\\', c] ∧ (c = mark ∨ c = '\\')) ∨
      (∃ d, escapeChar mark c = ['\\', d] ∧ (c, d) ∈ [('\t', 't'), ('\n', 'n'), ('\r', 'r')]) ∨
      escapeChar mark c = numericEscape c.toNat := by
  rw [escapeChar]
  split
  next h =>
    exact .inr (.inl ⟨rfl, by simpa using h⟩)
  next hplain =>
    simp only [Bool.or_eq_true, decide_eq_true_eq, not_or] at hplain
    split
    next h => exact .inr (.inr (.inl ⟨'t', rfl, by simp [h]⟩))
    next =>
      split
      next h => exact .inr (.inr (.inl ⟨'n', rfl, by simp [h]⟩))
      next =>
        split
        next h => exact .inr (.inr (.inl ⟨'r', rfl, by simp [h]⟩))
        next =>
          split
          next h => exact .inl ⟨rfl, hplain.1, hplain.2, h⟩
          next => exact .inr (.inr (.inr rfl))

theorem escapeChar_ne_nil (mark c : Char) : escapeChar mark c ≠ [] := by
  rcases escapeChar_cases mark c with ⟨heq, -⟩ | ⟨heq, -⟩ | ⟨d, heq, -⟩ | heq
  · simp [heq]
  · simp [heq]
  · simp [heq]
  · rw [heq, numericEscape]
    split
    · simp
    · split <;> simp

/-- How a character is written by its number. -/
theorem numericEscape_eq (c : Char) : ∃ letter width,
    numericEscape c.toNat = '\\' :: letter :: hexDigits width c.toNat ∧ c.toNat < 16 ^ width ∧
      (letter, width) ∈ [('x', 2), ('u', 4), ('U', 8)] := by
  have hvalid := toNat_lt c
  rw [numericEscape]
  split
  · exact ⟨'x', 2, rfl, by omega, by simp⟩
  · split
    · exact ⟨'u', 4, rfl, by omega, by simp⟩
    · exact ⟨'U', 8, rfl, by omega, by simp⟩

/-- What stands between quote marks has no control characters. -/
theorem le_toNat_of_mem_escapeChar {mark c d : Char} (hmark : 32 ≤ mark.toNat)
    (h : d ∈ escapeChar mark c) : 32 ≤ d.toNat := by
  have hslash : 32 ≤ '\\'.toNat := by decide
  rcases escapeChar_cases mark c with ⟨heq, -, -, hprint⟩ | ⟨heq, hc⟩ | ⟨e, heq, he⟩ | heq
  · obtain rfl := List.mem_singleton.mp (heq ▸ h)
    rw [isPrintable] at hprint
    split at hprint
    next => exact of_decide_eq_true hprint
    next hlarge => omega
  · rw [heq, List.mem_pair] at h
    rcases h with rfl | rfl
    · exact hslash
    · rcases hc with rfl | rfl
      · exact hmark
      · exact hslash
  · rw [heq, List.mem_pair] at h
    rcases h with rfl | rfl
    · exact hslash
    · simp only [List.mem_cons, Prod.mk.injEq, List.not_mem_nil, or_false] at he
      rcases he with ⟨-, rfl⟩ | ⟨-, rfl⟩ | ⟨-, rfl⟩ <;> decide
  · obtain ⟨letter, width, hnumber, -, hletter⟩ := numericEscape_eq c
    rw [heq, hnumber, List.mem_cons, List.mem_cons] at h
    rcases h with rfl | rfl | h
    · exact hslash
    · simp only [List.mem_cons, Prod.mk.injEq, List.not_mem_nil, or_false] at hletter
      rcases hletter with ⟨rfl, -⟩ | ⟨rfl, -⟩ | ⟨rfl, -⟩ <;> decide
    · exact forall_mem_hexDigits (P := fun d => 32 ≤ d.toNat) (by decide) width _ d h

theorem quoteMark_cases (text : List Char) : quoteMark text = '"' ∨ quoteMark text = '\'' := by
  rw [quoteMark]
  split
  · exact .inl rfl
  · exact .inr rfl

theorem le_toNat_quoteMark (text : List Char) : 32 ≤ (quoteMark text).toNat := by
  rcases quoteMark_cases text with h | h <;> rw [h] <;> decide

/-- A literal has no control characters. -/
theorem le_toNat_of_mem_quoteChars {text : List Char} {c : Char} (h : c ∈ quoteChars text) :
    32 ≤ c.toNat := by
  have hmark := le_toNat_quoteMark text
  simp only [quoteChars, List.mem_append, List.mem_cons, List.mem_flatMap, List.not_mem_nil,
    or_false] at h
  rcases h with (rfl | ⟨d, -, hd⟩) | rfl
  · exact hmark
  · exact le_toNat_of_mem_escapeChar hmark hd
  · exact hmark

end Text

namespace Syntax

open Text

/-! ## Escapes -/

theorem digitValue_digitChar : ∀ d < 16, digitValue (Nat.digitChar d) = d := by decide

theorem isDigitOf_digitChar : ∀ d < 16, isDigitOf 16 (Nat.digitChar d) = true := by decide

theorem digitsValue_hexDigits {width n : Nat} (h : n < 16 ^ width) :
    digitsValue 16 (hexDigits width n) = n := by
  induction width generalizing n with
  | zero =>
    obtain rfl : n = 0 := by simpa using h
    rfl
  | succ width ih =>
    have hlt : n / 16 < 16 ^ width := by
      rw [Nat.pow_succ] at h
      omega
    have hvalue : digitsValue 16 (hexDigits width (n / 16)) = n / 16 := ih hlt
    rw [digitsValue] at hvalue ⊢
    rw [hexDigits, List.foldl_append, hvalue, List.foldl_cons, List.foldl_nil,
      digitValue_digitChar _ (Nat.mod_lt _ (by decide))]
    omega

theorem takeHex_hexDigits {width n : Nat} (h : n < 16 ^ width) (rest : List Char) :
    takeHex width (hexDigits width n ++ rest) = some (n, rest) := by
  have hlength := length_hexDigits width n
  have htake : (hexDigits width n ++ rest).take width = hexDigits width n :=
    List.take_left' hlength
  have hdrop : (hexDigits width n ++ rest).drop width = rest := List.drop_left' hlength
  have hdigits : (hexDigits width n).all (isDigitOf 16) = true :=
    List.all_eq_true.mpr (forall_mem_hexDigits isDigitOf_digitChar width n)
  rw [takeHex, htake, hdrop, hlength, hdigits, digitsValue_hexDigits h]
  simp

/-- An escape by number means its character. -/
theorem takeEscape_numericEscape {letter : Char} {width : Nat} (c : Char)
    (hletter : (letter, width) ∈ [('x', 2), ('u', 4), ('U', 8)]) (h : c.toNat < 16 ^ width)
    (rest : List Char) :
    takeEscape (letter :: (hexDigits width c.toNat ++ rest)) = some ([c], rest) := by
  have hvalid := toNat_lt c
  have hnumbered : (takeHex width (hexDigits width c.toNat ++ rest)).bind (fun found =>
      if found.1 < 0x110000 then some ([Char.ofNat found.1], found.2) else none) =
        some ([c], rest) := by
    rw [takeHex_hexDigits h]
    simp [hvalid, Char.ofNat_toNat]
  simp only [List.mem_cons, Prod.mk.injEq, List.not_mem_nil, or_false] at hletter
  rcases hletter with ⟨rfl, rfl⟩ | ⟨rfl, rfl⟩ | ⟨rfl, rfl⟩ <;> exact hnumbered

/-- What is written for a character is read as the character. -/
theorem unescapeText_escapeChar {mark : Char} (hmark : mark = '"' ∨ mark = '\'') (c : Char)
    (steps : Nat) (rest : List Char) :
    unescapeText (steps + 1) (escapeChar mark c ++ rest) =
      (unescapeText steps rest).map (c :: ·) := by
  have hescape {e : List Char} (he : takeEscape (e ++ rest) = some ([c], rest)) :
      unescapeText (steps + 1) ('\\' :: e ++ rest) = (unescapeText steps rest).map (c :: ·) := by
    rw [List.cons_append, unescapeText, he]
    cases h : unescapeText steps rest <;> simp [h]
  rcases escapeChar_cases mark c with ⟨heq, -, hslash, -⟩ | ⟨heq, hc⟩ | ⟨d, heq, hd⟩ | heq
  · rw [heq, List.singleton_append, unescapeText]
    exact hslash
  · rw [heq]
    refine hescape ?_
    rcases hc with rfl | rfl
    · rcases hmark with rfl | rfl <;> rfl
    · rfl
  · rw [heq]
    refine hescape ?_
    simp only [List.mem_cons, Prod.mk.injEq, List.not_mem_nil, or_false] at hd
    rcases hd with ⟨rfl, rfl⟩ | ⟨rfl, rfl⟩ | ⟨rfl, rfl⟩ <;> rfl
  · obtain ⟨letter, width, hnumber, hlt, hletter⟩ := numericEscape_eq c
    rw [heq, hnumber]
    exact hescape (takeEscape_numericEscape c hletter hlt rest)

theorem unescapeText_flatMap {mark : Char} (hmark : mark = '"' ∨ mark = '\'') (text : List Char)
    {steps : Nat} (h : (text.flatMap (escapeChar mark)).length ≤ steps) :
    unescapeText steps (text.flatMap (escapeChar mark)) = some text := by
  induction text generalizing steps with
  | nil => cases steps <;> rfl
  | cons c rest ih =>
    have hlength := List.length_pos_of_ne_nil (escapeChar_ne_nil mark c)
    rw [List.flatMap_cons, List.length_append] at h
    obtain ⟨steps, rfl⟩ : ∃ n, steps = n + 1 := Nat.exists_eq_succ_of_ne_zero (by omega)
    rw [List.flatMap_cons, unescapeText_escapeChar hmark, ih (by omega)]
    rfl

/-- A text without backslashes has no escapes. -/
theorem unescapeText_of_plain {text : List Char} (hplain : '\\' ∉ text) {steps : Nat}
    (h : text.length ≤ steps) : unescapeText steps text = some text := by
  induction text generalizing steps with
  | nil => cases steps <;> rfl
  | cons c rest ih =>
    rw [List.mem_cons, not_or] at hplain
    obtain ⟨steps, rfl⟩ : ∃ n, steps = n + 1 := Nat.exists_eq_succ_of_ne_zero (by
      rw [List.length_cons] at h
      omega)
    rw [List.length_cons] at h
    rw [unescapeText, ih hplain.2 (by omega)]
    · rfl
    · exact Ne.symm hplain.1

/-! ## Bodies -/

/-- A character that ends neither a body nor its line is taken into the body. -/
theorem takeBody_cons {quote c : Char} (hslash : c ≠ '\\') (hquote : c ≠ quote) {triple : Bool}
    (hline : c = '\n' → triple = true) (rest : List Char) :
    takeBody quote triple (c :: rest) =
      (takeBody quote triple rest).map fun (b, r) => (c :: b, r) := by
  have hkept : ¬ (decide (c = '\n') && !triple) = true := by
    intro h
    simp only [Bool.and_eq_true, decide_eq_true_eq, Bool.not_eq_true'] at h
    rw [hline h.1] at h
    cases h.2
  rw [takeBody.eq_def]
  split
  next heq => cases heq
  next heq => exact absurd (List.cons.inj heq).1 hslash
  next heq => exact absurd (List.cons.inj heq).1 hslash
  next heq =>
    obtain ⟨rfl, rfl⟩ := List.cons.inj heq
    rw [if_neg hquote, if_neg hkept]

theorem takeBody_append {quote : Char} {triple : Bool} {plain : List Char}
    (hplain : ∀ c ∈ plain, c ≠ '\\' ∧ c ≠ quote ∧ (c = '\n' → triple = true)) (rest : List Char) :
    takeBody quote triple (plain ++ rest) =
      (takeBody quote triple rest).map fun (b, r) => (plain ++ b, r) := by
  induction plain with
  | nil => simp
  | cons c more ih =>
    rw [List.forall_mem_cons] at hplain
    obtain ⟨⟨hslash, hquote, hline⟩, hmore⟩ := hplain
    rw [List.cons_append, takeBody_cons hslash hquote hline, ih hmore, Option.map_map]
    rfl

/-- What is written for a character is taken into the body. -/
theorem takeBody_escapeChar {mark : Char} (hmark : mark = '"' ∨ mark = '\'') (c : Char)
    (rest : List Char) :
    takeBody mark false (escapeChar mark c ++ rest) =
      (takeBody mark false rest).map fun (b, r) => (escapeChar mark c ++ b, r) := by
  rcases escapeChar_cases mark c with ⟨heq, hne, hslash, hprint⟩ | ⟨heq, -⟩ | ⟨d, heq, -⟩ | heq
  · have hline : c ≠ '\n' := by
      rintro rfl
      exact absurd hprint (by decide)
    rw [heq]
    exact takeBody_cons hslash hne (fun h => absurd h hline) rest
  · rw [heq]
    rfl
  · rw [heq]
    rfl
  · obtain ⟨letter, width, hnumber, -, -⟩ := numericEscape_eq c
    have hdigits : ∀ d ∈ hexDigits width c.toNat,
        d ≠ '\\' ∧ d ≠ mark ∧ (d = '\n' → false = true) := by
      refine forall_mem_hexDigits ?_ width _
      rcases hmark with rfl | rfl <;> decide
    rw [heq, hnumber, List.cons_append, List.cons_append, takeBody, takeBody_append hdigits,
      Option.map_map]
    rfl

theorem takeBody_flatMap {mark : Char} (hmark : mark = '"' ∨ mark = '\'') (text rest : List Char) :
    takeBody mark false (text.flatMap (escapeChar mark) ++ mark :: rest) =
      some (text.flatMap (escapeChar mark), rest) := by
  induction text with
  | nil => rcases hmark with rfl | rfl <;> rfl
  | cons c more ih =>
    rw [List.flatMap_cons, List.append_assoc, takeBody_escapeChar hmark, ih]
    rfl

/-! ## Literals -/

/-- A body that does not start with the mark that ends it is taken up to that mark. -/
theorem takeQuoted_cons {mark c : Char} (hc : c ≠ mark) (rest : List Char) :
    takeQuoted (mark :: c :: rest) = takeBody mark false (c :: rest) := by
  cases rest with
  | nil => rfl
  | cons d more => simp [takeQuoted, hc]

/-- The literal of a text is taken whole, unless the mark that ends it could begin three of
them. -/
theorem takeQuoted_quoteChars (text : List Char) {rest : List Char}
    (hrest : ∀ c ∈ rest.head?, c ≠ quoteMark text) :
    takeQuoted (quoteChars text ++ rest) =
      some (text.flatMap (escapeChar (quoteMark text)), rest) := by
  have hmark := quoteMark_cases text
  have hbody := takeBody_flatMap hmark text rest
  rw [quoteChars, List.append_assoc, List.singleton_append, List.cons_append]
  cases text with
  | nil =>
    cases rest with
    | nil => exact hbody
    | cons c more =>
      have hc : c ≠ quoteMark [] := hrest c rfl
      simp [takeQuoted, hc]
  | cons c more =>
    obtain ⟨d, written, hwritten, hd⟩ : ∃ d written,
        escapeChar (quoteMark (c :: more)) c = d :: written ∧ d ≠ quoteMark (c :: more) := by
      have hslash : '\\' ≠ quoteMark (c :: more) := by
        rcases hmark with h | h <;> rw [h] <;> decide
      rcases escapeChar_cases (quoteMark (c :: more)) c with
        ⟨heq, hne, -, -⟩ | ⟨heq, -⟩ | ⟨e, heq, -⟩ | heq
      · exact ⟨c, [], heq, hne⟩
      · exact ⟨_, _, heq, hslash⟩
      · exact ⟨_, _, heq, hslash⟩
      · obtain ⟨letter, width, hnumber, -, -⟩ := numericEscape_eq c
        exact ⟨_, _, heq.trans hnumber, hslash⟩
    rw [List.flatMap_cons, hwritten] at hbody ⊢
    exact (takeQuoted_cons hd _).trans hbody

/-- What a literal without letters in front of it is, once its body is known. -/
theorem takeString?_of_takeQuoted {mark : Char} (hmark : mark = '"' ∨ mark = '\'')
    {body text quoted rest : List Char} (hquoted : takeQuoted (mark :: quoted) = some (body, rest))
    (hbody : unescapeText (body.length + 1) body = some text) :
    takeString? (mark :: quoted) = some (some (.text text, rest)) := by
  have hstart : takePrefix {} (mark :: quoted) = some ({}, mark :: quoted) := by
    rw [takePrefix, if_pos]
    rcases hmark with rfl | rfl <;> decide
  rw [takeString?, hstart, Option.map_some]
  simp [hquoted, StringPrefix.piece?, hbody]

/-- **The literal of a text has the text for its value.** -/
theorem takeString?_quoteChars (text : List Char) {rest : List Char}
    (hrest : ∀ c ∈ rest.head?, c ≠ quoteMark text) :
    takeString? (quoteChars text ++ rest) = some (some (.text text, rest)) :=
  takeString?_of_takeQuoted (quoteMark_cases text) (takeQuoted_quoteChars text hrest)
    (unescapeText_flatMap (quoteMark_cases text) text (Nat.le_succ _))

/-- A text without quotes and backslashes stands between three double quotes as it is. -/
theorem takeString?_tripled {text : List Char} (htext : ∀ c ∈ text, c ≠ '\\' ∧ c ≠ '"')
    (rest : List Char) :
    takeString? ('"' :: '"' :: '"' :: (text ++ '"' :: '"' :: '"' :: rest)) =
      some (some (.text text, rest)) := by
  have hquoted : takeQuoted ('"' :: '"' :: '"' :: (text ++ '"' :: '"' :: '"' :: rest)) =
      some (text, rest) := by
    change takeBody '"' true (text ++ '"' :: '"' :: '"' :: rest) = _
    rw [takeBody_append fun c hc => ⟨(htext c hc).1, (htext c hc).2, fun _ => rfl⟩]
    simp [takeBody]
  have hplain : '\\' ∉ text := fun h => (htext _ h).1 rfl
  exact takeString?_of_takeQuoted (.inl rfl) hquoted (unescapeText_of_plain hplain (Nat.le_succ _))

end Syntax

end ProviderRegistry
