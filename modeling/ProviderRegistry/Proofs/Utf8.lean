import Mathlib.Data.List.Basic
import ProviderRegistry.Text.Encoding

/-!
# Reading what was written in UTF-8

The decoder of this library against the encoder of the standard library. `nextChar`
recognises exactly the byte sequences that the encoder gives a character, so that a
whole text decodes to the characters whose bytes it is (`decode_utf8_iff`), and a
stream decodes to the same text however its blocks cut the characters
(`decodeStream_of_decode`).
-/

namespace ProviderRegistry.Text

/-! ## The bytes of a character -/

theorem toNat_valid (c : Char) : c.toNat < 55296 ∨ 57343 < c.toNat ∧ c.toNat < 1114112 := c.valid

theorem toNat_ofNat {n : Nat} (h : n < 55296 ∨ 57343 < n ∧ n < 1114112) :
    (Char.ofNat n).toNat = n := by
  have hv : n.isValidChar := h
  rw [Char.ofNat, dif_pos hv]
  rfl

section

variable {c : Char}

theorem utf8EncodeChar_one (h : c.toNat < 128) :
    String.utf8EncodeChar c = [UInt8.ofNat c.toNat] := by
  simp only [Char.toNat] at h ⊢
  simp only [String.utf8EncodeChar]
  rw [if_pos (by omega)]

theorem utf8EncodeChar_two (h : 128 ≤ c.toNat) (h' : c.toNat < 2048) :
    String.utf8EncodeChar c =
      [UInt8.ofNat (c.toNat / 64 % 32 + 192), UInt8.ofNat (c.toNat % 64 + 128)] := by
  simp only [Char.toNat] at h h' ⊢
  simp only [String.utf8EncodeChar]
  rw [if_neg (by omega), if_pos (by omega)]

theorem utf8EncodeChar_three (h : 2048 ≤ c.toNat) (h' : c.toNat < 65536) :
    String.utf8EncodeChar c =
      [UInt8.ofNat (c.toNat / 4096 % 16 + 224), UInt8.ofNat (c.toNat / 64 % 64 + 128),
        UInt8.ofNat (c.toNat % 64 + 128)] := by
  simp only [Char.toNat] at h h' ⊢
  simp only [String.utf8EncodeChar]
  rw [if_neg (by omega), if_neg (by omega), if_pos (by omega)]

theorem utf8EncodeChar_four (h : 65536 ≤ c.toNat) :
    String.utf8EncodeChar c =
      [UInt8.ofNat (c.toNat / 262144 % 8 + 240), UInt8.ofNat (c.toNat / 4096 % 64 + 128),
        UInt8.ofNat (c.toNat / 64 % 64 + 128), UInt8.ofNat (c.toNat % 64 + 128)] := by
  simp only [Char.toNat] at h ⊢
  simp only [String.utf8EncodeChar]
  rw [if_neg (by omega), if_neg (by omega), if_neg (by omega)]

end

/-! ## The first character of a sequence -/

theorem isContinuation_iff (b : UInt8) :
    isContinuation b = true ↔ 128 ≤ b.toNat ∧ b.toNat < 192 := by
  simp [isContinuation, UInt8.le_iff_toNat_le, UInt8.lt_iff_toNat_lt]

theorem appendBits_eq (high : Nat) (b : UInt8) :
    appendBits high b = high * 64 + (b.toNat - 128) := rfl

/-- Two bytes that may start a character of three: no longer form of a shorter
character, and no surrogate. -/
def startsThree (a b : UInt8) : Prop :=
  224 ≤ a.toNat ∧ a.toNat < 240 ∧ 128 ≤ b.toNat ∧ b.toNat < 192 ∧
    (a.toNat = 224 → 160 ≤ b.toNat) ∧ (a.toNat = 237 → b.toNat < 160)

/-- Two bytes that may start a character of four: no longer form of a shorter
character, and nothing above the last code point. -/
def startsFour (a b : UInt8) : Prop :=
  240 ≤ a.toNat ∧ a.toNat < 245 ∧ 128 ≤ b.toNat ∧ b.toNat < 192 ∧
    (a.toNat = 240 → 144 ≤ b.toNat) ∧ (a.toNat = 244 → b.toNat < 144)

section

variable {a b c d : UInt8} {rest : List UInt8}

theorem nextChar_one (h : a.toNat < 128) :
    nextChar (a :: rest) = .char (Char.ofNat a.toNat) 1 := by
  simp [nextChar, UInt8.lt_iff_toNat_lt, h]

theorem nextChar_two_start (h : 194 ≤ a.toNat) (h' : a.toNat < 224) :
    nextChar [a] = .cutOff := by
  have h1 : ¬ a.toNat < 128 := by omega
  have h2 : ¬ a.toNat < 194 := by omega
  have h3 : ¬ 245 ≤ a.toNat := by omega
  simp [nextChar, UInt8.lt_iff_toNat_lt, UInt8.le_iff_toNat_le, h1, h2, h3, h']

theorem nextChar_two (h : 194 ≤ a.toNat) (h' : a.toNat < 224) (hb : isContinuation b) :
    nextChar (a :: b :: rest) = .char (Char.ofNat (appendBits (a.toNat - 192) b)) 2 := by
  have h1 : ¬ a.toNat < 128 := by omega
  have h2 : ¬ a.toNat < 194 := by omega
  have h3 : ¬ 245 ≤ a.toNat := by omega
  simp [nextChar, UInt8.lt_iff_toNat_lt, UInt8.le_iff_toNat_le, h1, h2, h3, h', hb]

theorem nextChar_long_start (h : 224 ≤ a.toNat) (h' : a.toNat < 245) : nextChar [a] = .cutOff := by
  have h1 : ¬ a.toNat < 128 := by omega
  have h2 : ¬ a.toNat < 194 := by omega
  have h3 : ¬ 245 ≤ a.toNat := by omega
  have h4 : ¬ a.toNat < 224 := by omega
  simp [nextChar, UInt8.lt_iff_toNat_lt, UInt8.le_iff_toNat_le, h1, h2, h3, h4]

theorem nextChar_three (h : startsThree a b) :
    nextChar (a :: b :: rest) = match rest with
      | [] => .cutOff
      | c :: _ =>
        if isContinuation c then
          .char (Char.ofNat (appendBits (appendBits (a.toNat - 224) b) c)) 3
        else .invalid 2 .invalidContinuation := by
  obtain ⟨h1, h2, h3, h4, h5, h6⟩ := h
  have n1 : ¬ a.toNat < 128 := by omega
  have n2 : ¬ a.toNat < 194 := by omega
  have n3 : ¬ 245 ≤ a.toNat := by omega
  have n4 : ¬ a.toNat < 224 := by omega
  have hb : isContinuation b = true := (isContinuation_iff b).mpr ⟨h3, h4⟩
  have ho : ¬ (a.toNat = 224 ∧ b.toNat < 160) := by omega
  have hs : ¬ (a.toNat = 237 ∧ 160 ≤ b.toNat) := by omega
  cases rest <;>
    simp [nextChar, UInt8.lt_iff_toNat_lt, UInt8.le_iff_toNat_le, ← UInt8.toNat_inj, n1, n2, n3,
      n4, h2, hb, ho, hs]

theorem nextChar_four (h : startsFour a b) :
    nextChar (a :: b :: rest) = match rest with
      | [] => .cutOff
      | c :: rest =>
        if !isContinuation c then .invalid 2 .invalidContinuation
        else match rest with
          | [] => .cutOff
          | d :: _ =>
            if isContinuation d then
              .char (Char.ofNat (appendBits (appendBits (appendBits (a.toNat - 240) b) c) d)) 4
            else .invalid 3 .invalidContinuation := by
  obtain ⟨h1, h2, h3, h4, h5, h6⟩ := h
  have n1 : ¬ a.toNat < 128 := by omega
  have n2 : ¬ a.toNat < 194 := by omega
  have n3 : ¬ 245 ≤ a.toNat := by omega
  have n4 : ¬ a.toNat < 224 := by omega
  have n5 : ¬ a.toNat < 240 := by omega
  have hb : isContinuation b = true := (isContinuation_iff b).mpr ⟨h3, h4⟩
  have ho : ¬ (a.toNat = 240 ∧ b.toNat < 144) := by omega
  have hs : ¬ (a.toNat = 244 ∧ 144 ≤ b.toNat) := by omega
  rcases rest with _ | ⟨c, _ | ⟨d, rest⟩⟩ <;>
    simp [nextChar, UInt8.lt_iff_toNat_lt, UInt8.le_iff_toNat_le, ← UInt8.toNat_inj, n1, n2, n3,
      n4, n5, hb, ho, hs]

end

/-! ## A character's bytes are recognised -/

theorem toNat_byte {n : Nat} (h : n < 256) : (UInt8.ofNat n).toNat = n := by
  rw [UInt8.toNat_ofNat']
  exact Nat.mod_eq_of_lt h

theorem appendBits_byte (high : Nat) {n : Nat} (h : n < 64) :
    appendBits high (UInt8.ofNat (n + 128)) = high * 64 + n := by
  rw [appendBits_eq, toNat_byte (by omega)]
  omega

theorem isContinuation_byte {n : Nat} (h : n < 64) :
    isContinuation (UInt8.ofNat (n + 128)) = true := by
  rw [isContinuation_iff, toNat_byte (by omega)]
  omega

theorem startsThree_encode {n : Nat} (h : 2048 ≤ n) (h' : n < 65536)
    (hv : n < 55296 ∨ 57343 < n) :
    startsThree (UInt8.ofNat (n / 4096 % 16 + 224)) (UInt8.ofNat (n / 64 % 64 + 128)) := by
  simp only [startsThree]
  rw [toNat_byte (by omega), toNat_byte (by omega)]
  omega

theorem startsFour_encode {n : Nat} (h : 65536 ≤ n) (h' : n < 1114112) :
    startsFour (UInt8.ofNat (n / 262144 % 8 + 240)) (UInt8.ofNat (n / 4096 % 64 + 128)) := by
  simp only [startsFour]
  rw [toNat_byte (by omega), toNat_byte (by omega)]
  omega

/-- The sizes that a character's bytes come in. -/
theorem size_cases (c : Char) :
    c.toNat < 128 ∨ (128 ≤ c.toNat ∧ c.toNat < 2048) ∨
      (2048 ≤ c.toNat ∧ c.toNat < 65536) ∨ 65536 ≤ c.toNat := by
  omega

/-- The bytes of a character are read as that character, whatever follows them. -/
theorem nextChar_encode (c : Char) (rest : List UInt8) :
    nextChar (String.utf8EncodeChar c ++ rest) = .char c (String.utf8EncodeChar c).length := by
  have hv := toNat_valid c
  have back {n : Nat} (h : n = c.toNat) : Char.ofNat n = c := by rw [h, Char.ofNat_toNat]
  -- One case for each number of bytes: the first byte says how many follow, and the others
  -- give six bits each.
  rcases size_cases c with h | ⟨h, h'⟩ | ⟨h, h'⟩ | h
  · rw [utf8EncodeChar_one h, List.singleton_append, nextChar_one (by rw [toNat_byte] <;> omega),
      back (toNat_byte (by omega))]
    rfl
  · have ha := toNat_byte (show c.toNat / 64 % 32 + 192 < 256 by omega)
    rw [utf8EncodeChar_two h h', List.cons_append, List.singleton_append,
      nextChar_two (by omega) (by omega) (isContinuation_byte (by omega)), ha,
      appendBits_byte _ (by omega), back (by omega)]
    rfl
  · have ha := toNat_byte (show c.toNat / 4096 % 16 + 224 < 256 by omega)
    rw [utf8EncodeChar_three h h']
    simp only [List.cons_append, List.nil_append]
    rw [nextChar_three (startsThree_encode h h' (by omega)), ha]
    simp only [isContinuation_byte (show c.toNat % 64 < 64 by omega), if_true]
    rw [appendBits_byte _ (by omega), appendBits_byte _ (by omega), back (by omega)]
    rfl
  · have ha := toNat_byte (show c.toNat / 262144 % 8 + 240 < 256 by omega)
    rw [utf8EncodeChar_four h]
    simp only [List.cons_append, List.nil_append]
    rw [nextChar_four (startsFour_encode h (by omega)), ha]
    simp only [isContinuation_byte (show c.toNat % 64 < 64 by omega),
      isContinuation_byte (show c.toNat / 64 % 64 < 64 by omega), Bool.not_true, if_true,
      Bool.false_eq_true, if_false]
    rw [appendBits_byte _ (by omega), appendBits_byte _ (by omega), appendBits_byte _ (by omega),
      back (by omega)]
    rfl

/-- Some of a character's bytes, but not all, are read as a character that is cut off. -/
theorem nextChar_take (c : Char) {k : Nat} (h : k < (String.utf8EncodeChar c).length) :
    nextChar ((String.utf8EncodeChar c).take k) = .cutOff := by
  have hv := toNat_valid c
  -- As many cases as a character has bytes, and in each the number of those that are there.
  rcases size_cases c with hc | ⟨hc, hc'⟩ | ⟨hc, hc'⟩ | hc
  · rw [utf8EncodeChar_one hc] at h ⊢
    obtain rfl : k = 0 := by simpa using h
    rfl
  · have ha := toNat_byte (show c.toNat / 64 % 32 + 192 < 256 by omega)
    rw [utf8EncodeChar_two hc hc'] at h ⊢
    match k, h with
    | 0, _ => rfl
    | 1, _ => exact nextChar_two_start (by omega) (by omega)
    | k + 2, h => exact absurd h (Nat.not_lt.mpr (Nat.le_add_left 2 k))
  · have ha := toNat_byte (show c.toNat / 4096 % 16 + 224 < 256 by omega)
    rw [utf8EncodeChar_three hc hc'] at h ⊢
    match k, h with
    | 0, _ => rfl
    | 1, _ => exact nextChar_long_start (by omega) (by omega)
    | 2, _ => exact nextChar_three (startsThree_encode hc hc' (by omega))
    | k + 3, h => exact absurd h (Nat.not_lt.mpr (Nat.le_add_left 3 k))
  · have ha := toNat_byte (show c.toNat / 262144 % 8 + 240 < 256 by omega)
    rw [utf8EncodeChar_four hc] at h ⊢
    match k, h with
    | 0, _ => rfl
    | 1, _ => exact nextChar_long_start (by omega) (by omega)
    | 2, _ => exact nextChar_four (startsFour_encode hc (by omega))
    | 3, _ =>
      simp only [List.take_succ_cons, List.take_zero]
      rw [nextChar_four (startsFour_encode hc (by omega))]
      simp only [isContinuation_byte (show c.toNat / 64 % 64 < 64 by omega), Bool.not_true,
        Bool.false_eq_true, if_false]
    | k + 4, h => exact absurd h (Nat.not_lt.mpr (Nat.le_add_left 4 k))

/-! ## Only a character's bytes are recognised -/

section

variable {a b c d : UInt8} {n : Nat}

theorem byte_eq (h : a.toNat = n) (hn : n < 256) : a = UInt8.ofNat n := by
  rw [← UInt8.toNat_inj, toNat_byte hn, h]

theorem encode_two (ha : 194 ≤ a.toNat) (ha' : a.toNat < 224) (hb : isContinuation b = true) :
    String.utf8EncodeChar (Char.ofNat (appendBits (a.toNat - 192) b)) = [a, b] := by
  rw [isContinuation_iff] at hb
  have hlt : appendBits (a.toNat - 192) b < 2048 := by
    simp only [appendBits_eq]
    omega
  have hn := toNat_ofNat (n := appendBits (a.toNat - 192) b) (by omega)
  simp only [appendBits_eq] at hn ⊢
  rw [utf8EncodeChar_two (by omega) (by omega), hn, ← byte_eq (a := a) (by omega) (by omega),
    ← byte_eq (a := b) (by omega) (by omega)]

theorem encode_three (h : startsThree a b) (hc : isContinuation c = true) :
    String.utf8EncodeChar (Char.ofNat (appendBits (appendBits (a.toNat - 224) b) c)) =
      [a, b, c] := by
  rw [isContinuation_iff] at hc
  obtain ⟨h1, h2, h3, h4, h5, h6⟩ := h
  have hn := toNat_ofNat (n := appendBits (appendBits (a.toNat - 224) b) c)
    (by simp only [appendBits_eq]; omega)
  simp only [appendBits_eq] at hn ⊢
  rw [utf8EncodeChar_three (by omega) (by omega), hn, ← byte_eq (a := a) (by omega) (by omega),
    ← byte_eq (a := b) (by omega) (by omega), ← byte_eq (a := c) (by omega) (by omega)]

theorem encode_four (h : startsFour a b) (hc : isContinuation c = true)
    (hd : isContinuation d = true) :
    String.utf8EncodeChar
        (Char.ofNat (appendBits (appendBits (appendBits (a.toNat - 240) b) c) d)) =
      [a, b, c, d] := by
  rw [isContinuation_iff] at hc hd
  obtain ⟨h1, h2, h3, h4, h5, h6⟩ := h
  have hn := toNat_ofNat (n := appendBits (appendBits (appendBits (a.toNat - 240) b) c) d)
    (by simp only [appendBits_eq]; omega)
  simp only [appendBits_eq] at hn ⊢
  rw [utf8EncodeChar_four (by omega), hn, ← byte_eq (a := a) (by omega) (by omega),
    ← byte_eq (a := b) (by omega) (by omega), ← byte_eq (a := c) (by omega) (by omega),
    ← byte_eq (a := d) (by omega) (by omega)]

end

/-- A character is read only where its bytes stand, and as many as it has. -/
theorem encode_of_nextChar {bytes : List UInt8} {c : Char} {n : Nat} :
    nextChar bytes = .char c n →
      bytes = String.utf8EncodeChar c ++ bytes.drop n ∧ n = (String.utf8EncodeChar c).length := by
  -- Only four cases of `nextChar` read a character; the others say why there is none.
  fun_cases nextChar bytes with
  | case2 a rest ha =>
    intro h
    obtain ⟨rfl, rfl⟩ := NextChar.char.inj h
    rw [UInt8.lt_iff_toNat_lt] at ha
    have ha : a.toNat < 128 := ha
    have hn := toNat_ofNat (n := a.toNat) (by omega)
    rw [utf8EncodeChar_one (by omega), hn, UInt8.ofNat_toNat]
    exact ⟨rfl, rfl⟩
  | case5 a h1 h2 h3 b rest hb =>
    intro h
    obtain ⟨rfl, rfl⟩ := NextChar.char.inj h
    simp [UInt8.lt_iff_toNat_lt, UInt8.le_iff_toNat_le] at h1 h2 h3
    rw [encode_two (by omega) (by omega) hb]
    exact ⟨rfl, rfl⟩
  | case10 a h1 h2 h3 h4 b hb c rest hc =>
    intro h
    obtain ⟨rfl, rfl⟩ := NextChar.char.inj h
    have hs : startsThree a b := by
      simp [UInt8.lt_iff_toNat_lt, UInt8.le_iff_toNat_le, isContinuation, ← UInt8.toNat_inj]
        at h1 h2 h3 h4 hb
      simp only [startsThree]
      omega
    rw [encode_three hs hc]
    exact ⟨rfl, rfl⟩
  | case17 a h1 h2 h3 h4 b hb c hc d rest hd =>
    intro h
    obtain ⟨rfl, rfl⟩ := NextChar.char.inj h
    have hs : startsFour a b := by
      simp [UInt8.lt_iff_toNat_lt, UInt8.le_iff_toNat_le, isContinuation, ← UInt8.toNat_inj]
        at h1 h2 h3 h4 hb
      simp only [startsFour]
      omega
    rw [encode_four hs (by simpa using hc) hd]
    exact ⟨rfl, rfl⟩
  | _ =>
    intro h
    cases h

/-! ## Whole texts -/

@[simp] theorem utf8Bytes_nil : utf8Bytes [] = [] := rfl

@[simp] theorem utf8Bytes_cons (c : Char) (text : List Char) :
    utf8Bytes (c :: text) = String.utf8EncodeChar c ++ utf8Bytes text := by
  simp [utf8Bytes]

theorem utf8EncodeChar_ne_nil (c : Char) : String.utf8EncodeChar c ≠ [] := by
  intro h
  have := c.utf8Size_pos
  rw [← String.length_utf8EncodeChar, h] at this
  exact Nat.lt_irrefl 0 this

theorem length_le_length_utf8Bytes (text : List Char) : text.length ≤ (utf8Bytes text).length := by
  induction text with
  | nil => exact Nat.le_refl 0
  | cons c text ih =>
    have := List.length_pos_iff.mpr (utf8EncodeChar_ne_nil c)
    rw [utf8Bytes_cons, List.length_append, List.length_cons]
    omega

/-- Decoding reads all the characters whose bytes are there, and leaves those of one
that is cut off. -/
theorem decodeUtf8_append (text : List Char) {tail : List UInt8} (hcut : nextChar tail = .cutOff)
    {steps : Nat} (h : text.length ≤ steps) (position : Nat) :
    decodeUtf8 steps position (utf8Bytes text ++ tail) = .ok (text, tail) := by
  -- By induction on the text: a step reads its first character.
  induction text generalizing steps position with
  | nil =>
    cases steps with
    | zero => rfl
    | succ steps =>
      cases tail with
      | nil => rfl
      | cons b tail => simp [decodeUtf8, hcut]
  | cons c text ih =>
    cases steps with
    | zero => simp at h
    | succ steps =>
      have hne : (String.utf8EncodeChar c ++ (utf8Bytes text ++ tail)).isEmpty = false := by
        simp
      rw [utf8Bytes_cons, List.append_assoc, decodeUtf8, hne, nextChar_encode]
      simp only [Bool.false_eq_true, if_false, List.drop_left]
      rw [ih (by simpa using h)]

/-- Decoding reads nothing but characters whose bytes are there. -/
theorem eq_of_decodeUtf8 {steps position : Nat} {bytes tail : List UInt8} {text : List Char}
    (h : decodeUtf8 steps position bytes = .ok (text, tail)) :
    bytes = utf8Bytes text ++ tail := by
  -- By induction on the steps, each of which reads one character.
  induction steps generalizing position bytes text tail with
  | zero =>
    obtain ⟨rfl, rfl⟩ := by simpa [decodeUtf8] using h
    rfl
  | succ steps ih =>
    unfold decodeUtf8 at h
    split at h
    next hempty =>
      obtain ⟨rfl, rfl⟩ := by simpa using h
      simpa using hempty
    next =>
      split at h
      next =>
        obtain ⟨rfl, rfl⟩ := by simpa using h
        rfl
      next => cases h
      next c size hnext =>
        split at h
        next => cases h
        next chars rest hrest =>
          obtain ⟨rfl, rfl⟩ := by simpa using h
          rw [utf8Bytes_cons, List.append_assoc, ← ih hrest]
          exact (encode_of_nextChar hnext).1

/-- **A file is a text exactly when it is the bytes of its characters.** -/
theorem decode_utf8_iff {bytes : List UInt8} {text : List Char} :
    decode .utf8 bytes = .ok text ↔ bytes = utf8Bytes text := by
  constructor
  · intro h
    simp only [decode] at h
    split at h
    next => cases h
    next chars hd =>
      obtain rfl := by simpa using h
      simpa using eq_of_decodeUtf8 hd
    next => cases h
  · rintro rfl
    have hcut : nextChar [] = .cutOff := rfl
    have hd := decodeUtf8_append text hcut (length_le_length_utf8Bytes text) 0
    rw [List.append_nil] at hd
    simp only [decode, hd]

/-! ## Streams -/

/-- Cutting the bytes of a text anywhere leaves whole characters and, at the cut, at most
some of the bytes of one. -/
theorem split_utf8Bytes (text : List Char) (n : Nat) :
    ∃ read left tail, text = read ++ left ∧ (utf8Bytes text).take n = utf8Bytes read ++ tail ∧
      nextChar tail = .cutOff ∧ tail ++ (utf8Bytes text).drop n = utf8Bytes left := by
  induction text generalizing n with
  | nil => exact ⟨[], [], [], rfl, by simp, rfl, by simp⟩
  | cons c text ih =>
    by_cases hn : n < (String.utf8EncodeChar c).length
    · refine ⟨[], c :: text, (String.utf8EncodeChar c).take n, rfl, ?_, nextChar_take c hn, ?_⟩
      · rw [utf8Bytes_cons, List.take_append_of_le_length (by omega)]
        rfl
      · rw [utf8Bytes_cons, List.drop_append_of_le_length (by omega), ← List.append_assoc,
          List.take_append_drop]
    · obtain ⟨read, left, tail, rfl, htake, hcut, hdrop⟩ :=
        ih (n - (String.utf8EncodeChar c).length)
      refine ⟨c :: read, left, tail, rfl, ?_, hcut, ?_⟩
      · rw [utf8Bytes_cons, List.take_append, List.take_of_length_le (by omega), htake,
          utf8Bytes_cons, List.append_assoc]
      · rw [utf8Bytes_cons, List.drop_append, List.drop_of_length_le (by omega), List.nil_append,
          hdrop]

/-- What is left of a text, with the bytes carried over from the block before, decodes to
the characters that are left. -/
theorem decodeBlocks_utf8Bytes (text : List Char) (blocks : Nat) (pending rest : List UInt8)
    (hcut : nextChar pending = .cutOff) (h : pending ++ rest = utf8Bytes text)
    (hblocks : rest.length < blocks) : decodeBlocks .utf8 blocks pending rest = .ok text := by
  induction blocks generalizing text pending rest with
  | zero => exact absurd hblocks (Nat.not_lt_zero _)
  | succ blocks ih =>
    unfold decodeBlocks
    cases rest with
    | nil =>
      cases text with
      | nil =>
        obtain rfl : pending = [] := by simpa using h
        rfl
      | cons c text =>
        -- A whole character would have been read with its block.
        rw [List.append_nil, utf8Bytes_cons] at h
        rw [h, nextChar_encode] at hcut
        cases hcut
    | cons b rest =>
      obtain ⟨read, left, tail, rfl, htake, htail, hdrop⟩ :=
        split_utf8Bytes text (pending.length + blockSize)
      rw [← h, List.take_length_add_append] at htake
      rw [← h, List.drop_length_add_append] at hdrop
      have hlen : read.length ≤ (utf8Bytes read ++ tail).length := by
        have := length_le_length_utf8Bytes read
        rw [List.length_append]
        omega
      have hleft : ((b :: rest).drop blockSize).length < blocks := by
        simp only [List.length_drop, List.length_cons, blockSize] at hblocks ⊢
        omega
      have hmore := ih left tail ((b :: rest).drop blockSize) htail hdrop hleft
      simp only [List.isEmpty_cons, Bool.false_eq_true, if_false, htake,
        decodeUtf8_append read htail hlen, bind, Except.bind, hmore, pure, Except.pure]

/-- **A stream is the text that the whole file is**, wherever its blocks end. -/
theorem decodeStream_of_decode {bytes : List UInt8} {text : List Char}
    (h : decode .utf8 bytes = .ok text) : decodeStream .utf8 bytes = .ok text := by
  rw [decode_utf8_iff] at h
  exact decodeBlocks_utf8Bytes text _ [] bytes rfl h (Nat.lt_succ_self _)

theorem decode_utf8Bytes (text : List Char) : decode .utf8 (utf8Bytes text) = .ok text :=
  decode_utf8_iff.mpr rfl

end ProviderRegistry.Text
