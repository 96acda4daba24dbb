import Mathlib
import ProviderRegistry.Naming

/-!
# Where underscores go

The snake-case form of a name is made in two passes, and each of them takes pieces out of the
text that do not overlap. What comes out is nevertheless decided at every position by the
characters next to it alone: an underscore goes before a capital that starts a word
(`StartsWord`), and nowhere else (`snakeCase_eq`).

The second pass looks at two neighbours only, since no capital is a small letter or a digit
(`separateCapitals_cons`). The first one goes on after the small letters that it has taken. The
capital that may follow them is lost to it, but stands after a small letter and is left to the
second pass.
-/

namespace ProviderRegistry.Naming

/-! ## Words -/

/-- Whether a word starts with a character between two others: a capital after a small letter or
a digit, or one between any character but a newline and a small letter. -/
def startsBetween (before c : Char) (after : Option Char) : Bool :=
  isCapital c && (isSmall before || before.isDigit || before != '\n' && after.any isSmall)

/-- A word starts at a position of a text. None starts with its first character. -/
def StartsWord (text : List Char) (i : Nat) : Prop :=
  1 ≤ i ∧ ∃ before c, text[i - 1]? = some before ∧ text[i]? = some c ∧ isCapital c = true ∧
    ((isSmall before = true ∨ before.isDigit = true) ∨
      before ≠ '\n' ∧ ∃ after, text[i + 1]? = some after ∧ isSmall after = true)

theorem not_startsWord_zero (text : List Char) : ¬ StartsWord text 0 := fun h => by cases h.1

/-- What stands before a position and at it settles the rest. -/
theorem startsWord_succ_iff {text : List Char} {i : Nat} {before c : Char}
    (hbefore : text[i]? = some before) (hc : text[i + 1]? = some c) :
    StartsWord text (i + 1) ↔ startsBetween before c text[i + 2]? = true := by
  have hnext : text[i + 1 + 1]? = text[i + 2]? := rfl
  simp only [StartsWord, startsBetween, Nat.add_sub_cancel, hbefore, hc, hnext,
    Option.some.injEq, exists_eq_left', exists_and_left, Bool.and_eq_true, Bool.or_eq_true,
    bne_iff_ne, Option.any_eq_true]
  exact and_iff_right (Nat.le_add_left 1 i)

instance (text : List Char) (i : Nat) : Decidable (StartsWord text i) :=
  match i with
  | 0 => isFalse (not_startsWord_zero text)
  | i + 1 =>
    match hbefore : text[i]?, hc : text[i + 1]? with
    | some _, some _ => decidable_of_iff' _ (startsWord_succ_iff hbefore hc)
    | none, _ => isFalse fun ⟨_, _, _, h, _⟩ => by
      rw [Nat.add_sub_cancel, hbefore] at h
      cases h
    | _, none => isFalse fun ⟨_, _, _, _, h, _⟩ => by
      rw [hc] at h
      cases h

/-- A text with an underscore before every word that does not start it. -/
def underscored (text : List Char) : List Char :=
  text.zipIdx.flatMap fun (c, i) => if StartsWord text i then ['_', c] else [c]

/-! ## From position to position -/

/-- Whether a word starts right after a character. -/
def startsNext (before : Char) : List Char → Bool
  | [] => false
  | c :: rest => startsBetween before c rest.head?

theorem startsNext_of_small {before : Char} (h : (isSmall before || before.isDigit) = true)
    (text : List Char) : startsNext before text = text.head?.any isCapital := by
  cases text with
  | nil => rfl
  | cons c rest =>
    rw [startsNext, startsBetween, h, Bool.true_or, Bool.and_true]
    rfl

/-- What stands before the first characters of two texts does not matter further on. -/
theorem startsWord_cons_succ (c : Char) (text : List Char) {i : Nat} (h : 1 ≤ i) :
    StartsWord (c :: text) (i + 1) ↔ StartsWord text i := by
  obtain ⟨i, rfl⟩ := Nat.exists_eq_add_of_le' h
  simp only [StartsWord, Nat.add_sub_cancel, List.getElem?_cons_succ, Nat.le_add_left, true_and]

/-- An underscore stands after a character or not, and the rest of the text is underscored. -/
theorem underscored_cons (c : Char) (rest : List Char) :
    underscored (c :: rest) =
      c :: ((if startsNext c rest then ['_'] else []) ++ underscored rest) := by
  rw [underscored, List.zipIdx_cons, List.flatMap_cons]
  simp only [if_neg (not_startsWord_zero _), Nat.zero_add]
  refine congrArg (c :: ·) ?_
  cases rest with
  | nil => rfl
  | cons d rest =>
    have hfirst : StartsWord (c :: d :: rest) 1 ↔ startsNext c (d :: rest) = true := by
      have hbefore : (c :: d :: rest)[0]? = some c := rfl
      have hat : (c :: d :: rest)[0 + 1]? = some d := rfl
      rw [startsWord_succ_iff hbefore hat, startsNext, List.head?_eq_getElem?]
      rfl
    -- Further on the positions are those of the rest of the text, moved by one.
    have hlater : (rest.zipIdx 2).flatMap (fun (e, i) =>
          if StartsWord (c :: d :: rest) i then ['_', e] else [e]) =
        (rest.zipIdx 1).flatMap fun (e, i) =>
          if StartsWord (d :: rest) i then ['_', e] else [e] := by
      rw [List.zipIdx_succ, List.flatMap_map]
      refine List.flatMap_congr fun ⟨e, i⟩ hmem => ?_
      have hi : 1 ≤ i := (List.mem_zipIdx hmem).1
      simp only [startsWord_cons_succ c (d :: rest) hi]
    rw [underscored, List.zipIdx_cons, List.flatMap_cons, List.zipIdx_cons, List.flatMap_cons,
      hlater]
    simp only [hfirst, if_neg (not_startsWord_zero _)]
    split <;> rfl

/-! ## The second pass -/

/-- A capital is no small letter and no digit. -/
theorem isCapital_apart {c : Char} (h : isCapital c = true) :
    (isSmall c || c.isDigit) = false := by
  have hsmall : isSmall c = false := Bool.eq_false_iff.mpr (Char.not_isLower_of_isUpper h)
  rw [hsmall, Bool.false_or, Bool.eq_false_iff]
  intro hdigit
  simp only [isCapital, Char.isUpper, ge_iff_le, decide_eq_true_eq, UInt32.le_iff_toNat_le] at h
  simp only [Char.isDigit, ge_iff_le, Bool.and_eq_true, decide_eq_true_eq,
    UInt32.le_iff_toNat_le] at hdigit
  exact absurd (h.1.trans hdigit.2) (by decide)

theorem separateCapitals_capital {c : Char} (h : isCapital c = true) (rest : List Char) :
    separateCapitals (c :: rest) = c :: separateCapitals rest := by
  cases rest with
  | nil => rfl
  | cons d rest =>
    rw [separateCapitals, isCapital_apart h]
    simp

/-- The second pass looks at a character and the one after it, wherever its last match ended. -/
theorem separateCapitals_cons (c : Char) (rest : List Char) :
    separateCapitals (c :: rest) =
      c :: ((if (isSmall c || c.isDigit) && rest.head?.any isCapital then ['_'] else []) ++
        separateCapitals rest) := by
  cases rest with
  | nil => simp [separateCapitals]
  | cons d rest =>
    rw [separateCapitals, List.head?_cons, Option.any_some]
    split
    next h =>
      rw [Bool.and_eq_true] at h
      rw [separateCapitals_capital h.2]
      rfl
    next => rfl

/-- Over small letters the second pass does what is asked, if it does after them. -/
theorem separateCapitals_append {small text rest : List Char}
    (hsmall : ∀ c ∈ small, isSmall c = true) (hhead : text.head? = rest.head?)
    (h : separateCapitals text = underscored rest) :
    separateCapitals (small ++ text) = underscored (small ++ rest) := by
  induction small with
  | nil => exact h
  | cons c more ih =>
    rw [List.forall_mem_cons] at hsmall
    have hc : (isSmall c || c.isDigit) = true := by rw [hsmall.1, Bool.true_or]
    have hnext : (more ++ text).head? = (more ++ rest).head? := by
      rw [List.head?_append, List.head?_append, hhead]
    rw [List.cons_append, List.cons_append, separateCapitals_cons, underscored_cons,
      startsNext_of_small hc, hc, Bool.true_and, hnext, ih hsmall.2]

/-! ## The first pass -/

theorem head?_separateWords (text : List Char) : (separateWords text).head? = text.head? := by
  fun_cases separateWords text with
  | case1 => rfl
  | case2 => rfl
  | case3 => rfl
  | case4 => rfl

/-- What the first pass takes after a capital is there when a small letter is next. -/
theorem takeWhile_isSmall_ne_nil (rest : List Char) :
    (rest.takeWhile isSmall != []) = rest.head?.any isSmall := by
  cases rest with
  | nil => rfl
  | cons c rest =>
    rw [List.takeWhile_cons, List.head?_cons, Option.any_some]
    cases isSmall c <;> rfl

/-- Where the first pass matches, a word starts with the capital, and none right after it. -/
theorem underscored_match {c d : Char} {rest : List Char} (hc : c ≠ '\n')
    (hd : isCapital d = true) (hsmall : rest.head?.any isSmall = true) :
    underscored (c :: d :: rest) = c :: '_' :: d :: underscored rest := by
  have hstarts : startsNext c (d :: rest) = true := by
    rw [startsNext, startsBetween, hd, hsmall, bne_iff_ne.mpr hc, Bool.and_true, Bool.or_true]
    rfl
  have hnext : startsNext d rest = false := by
    obtain ⟨e, he, hesmall⟩ := (Option.any_eq_true _ _).mp hsmall
    obtain ⟨rest, rfl⟩ := List.head?_eq_some_iff.mp he
    have hcapital : isCapital e = false :=
      Bool.eq_false_iff.mpr (Char.not_isUpper_of_isLower hesmall)
    rw [startsNext, startsBetween, hcapital, Bool.false_and]
  rw [underscored_cons, hstarts, underscored_cons, hnext]
  rfl

/-- **The two passes together** underscore a text. -/
theorem separateCapitals_separateWords (text : List Char) :
    separateCapitals (separateWords text) = underscored text := by
  -- The cases are those of the first pass: nothing, one character, a match, and none.
  fun_induction separateWords text with
  | case1 => rfl
  | case2 c => rw [underscored_cons]; rfl
  | case3 c d rest hmatch ih =>
    simp only [Bool.and_eq_true, bne_iff_ne, takeWhile_isSmall_ne_nil] at hmatch
    obtain ⟨⟨hc, hd⟩, hsmall⟩ := hmatch
    have hrest : separateCapitals (rest.takeWhile isSmall ++
        separateWords (rest.dropWhile isSmall)) = underscored rest := by
      have hall : ∀ e ∈ rest.takeWhile isSmall, isSmall e = true :=
        fun _ => List.mem_takeWhile_imp
      have happend := separateCapitals_append hall
        (head?_separateWords (rest.dropWhile isSmall)) ih
      rwa [List.takeWhile_append_dropWhile] at happend
    have hunderscore : (isSmall '_' || '_'.isDigit) = false := by decide
    have hcapital : isCapital '_' = false := by decide
    rw [underscored_match hc hd hsmall, separateCapitals_cons, separateCapitals_cons '_',
      separateCapitals_capital hd, hrest, hunderscore, List.head?_cons, Option.any_some, hcapital,
      Bool.and_false, Bool.false_and]
    rfl
  | case4 c d rest hmatch ih =>
    have hstarts : startsNext c (d :: rest) = ((isSmall c || c.isDigit) && isCapital d) := by
      rw [takeWhile_isSmall_ne_nil, Bool.and_right_comm, Bool.and_eq_true, not_and',
        Bool.not_eq_true] at hmatch
      rw [startsNext, startsBetween, Bool.and_comm]
      cases hd : isCapital d with
      | false => rw [Bool.and_false, Bool.and_false]
      | true => rw [hmatch hd, Bool.or_false]
    rw [separateCapitals_cons, head?_separateWords, ih, underscored_cons c, hstarts]
    rfl

/-- **The snake-case form of a name** is the text with an underscore before every word that does
not start it, in lower case. -/
theorem snakeCase_eq (name : String) :
    snakeCase name = String.ofList (Text.lower (underscored name.toList)) := by
  rw [snakeCase, snakeCaseChars, separateCapitals_separateWords]

example : String.ofList (underscored "aHTTPServer2XY".toList) = "a_HTTP_Server2_XY" := by
  decide +kernel

end ProviderRegistry.Naming
