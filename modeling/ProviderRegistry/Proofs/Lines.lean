import Mathlib.Data.List.Basic
import ProviderRegistry.Text.Lines

/-!
# Writing lines and reading them back

Lines that hold no line end are read back as they were written, and a text whose line
ends have been made newlines has lines that hold none.
-/

namespace ProviderRegistry.Text

/-! ## Line ends -/

theorem normalizeNewlines_eq_self {text : List Char} (h : '\r' ∉ text) :
    normalizeNewlines text = text := by
  -- Two of the cases begin with a carriage return, which the text does not have.
  fun_induction normalizeNewlines text with
  | case1 => rfl
  | case2 rest ih => exact absurd List.mem_cons_self h
  | case3 rest hr ih => exact absurd List.mem_cons_self h
  | case4 c rest h1 h2 ih => rw [ih fun hm => h (List.mem_cons_of_mem c hm)]

theorem carriageReturn_notMem_normalizeNewlines (text : List Char) :
    '\r' ∉ normalizeNewlines text := by
  fun_induction normalizeNewlines text with
  | case1 => simp
  | case2 rest ih => simpa using ih
  | case3 rest h ih => simpa using ih
  | case4 c rest h1 h2 ih =>
    rw [List.mem_cons, not_or]
    exact ⟨fun hc => h2 hc.symm, ih⟩

/-! ## Lines -/

theorem consFirst_ne_nil (c : Char) (lines : List (List Char)) : consFirst c lines ≠ [] := by
  cases lines <;> simp [consFirst]

theorem linesOf_line {line : List Char} (h : '\n' ∉ line) (rest : List Char) :
    linesOf (line ++ '\n' :: rest) = line :: linesOf rest := by
  induction line with
  | nil => simp [linesOf]
  | cons c line ih =>
    rw [List.mem_cons, not_or] at h
    rw [List.cons_append, linesOf, if_neg (Ne.symm h.1), ih h.2]
    rfl

@[simp] theorem unlines_nil : unlines [] = [] := rfl

@[simp] theorem unlines_cons (line : List Char) (lines : List (List Char)) :
    unlines (line :: lines) = line ++ '\n' :: unlines lines := by
  simp [unlines]

/-- Lines are read back as they were written. -/
theorem linesOf_unlines {lines : List (List Char)} (h : ∀ line ∈ lines, '\n' ∉ line) :
    linesOf (unlines lines) = lines := by
  induction lines with
  | nil => rfl
  | cons line lines ih =>
    rw [List.forall_mem_cons] at h
    rw [unlines_cons, linesOf_line h.1, ih h.2]

theorem mem_consFirst {c d : Char} {line : List Char} {lines : List (List Char)}
    (hline : line ∈ consFirst c lines) (hd : d ∈ line) : d = c ∨ ∃ l ∈ lines, d ∈ l := by
  cases lines with
  | nil =>
    obtain rfl := List.mem_singleton.mp hline
    exact .inl (List.mem_singleton.mp hd)
  | cons first lines =>
    rcases List.mem_cons.mp hline with rfl | hl
    · rcases List.mem_cons.mp hd with rfl | hd
      · exact .inl rfl
      · exact .inr ⟨first, List.mem_cons_self, hd⟩
    · exact .inr ⟨line, List.mem_cons_of_mem _ hl, hd⟩

/-- The characters of the lines are those of the text, without the line ends. -/
theorem mem_linesOf {text line : List Char} {d : Char} (hline : line ∈ linesOf text)
    (hd : d ∈ line) : d ∈ text ∧ d ≠ '\n' := by
  induction text generalizing line with
  | nil => cases hline
  | cons c rest ih =>
    rw [linesOf] at hline
    split at hline
    next =>
      rcases List.mem_cons.mp hline with rfl | hl
      · cases hd
      · exact ⟨List.mem_cons_of_mem _ (ih hl hd).1, (ih hl hd).2⟩
    next hc =>
      rcases mem_consFirst hline hd with rfl | ⟨l, hl, hd⟩
      · exact ⟨List.mem_cons_self, hc⟩
      · exact ⟨List.mem_cons_of_mem _ (ih hl hd).1, (ih hl hd).2⟩

theorem carriageReturn_notMem_unlines {lines : List (List Char)}
    (h : ∀ line ∈ lines, '\r' ∉ line) : '\r' ∉ unlines lines := by
  induction lines with
  | nil => simp
  | cons line lines ih =>
    rw [List.forall_mem_cons] at h
    simpa using ⟨h.1, ih h.2⟩

end ProviderRegistry.Text
