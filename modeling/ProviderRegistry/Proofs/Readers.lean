import ProviderRegistry.Proofs.Entries
import ProviderRegistry.Proofs.Names
import ProviderRegistry.Registry.Aggregate

/-!
# Two readers of registry files

Merging takes a registry file apart at newlines and keeps each line as it is; the runtime
takes it apart at every line boundary and looks for a name on each part. A newline is a
boundary too, so that the runtime sees in a file what it sees in each of the lines that
merging sees (`provided_readLines`).
-/

namespace ProviderRegistry

/-! ## Taking texts apart -/

namespace Text

/-- A character that starts no pair of line ends, nor could with what follows. -/
theorem splitLines_cons_append {c : Char} {rest : List Char}
    (hpair : ∀ after, c = '\r' → rest = '\n' :: after → False) (hlast : c = '\r' → rest ≠ [])
    (more : List Char) :
    splitLines (c :: rest ++ more) =
      if isLineBoundary c then [] :: splitLines (rest ++ more)
      else consFirst c (splitLines (rest ++ more)) := by
  refine splitLines.eq_3 c (rest ++ more) fun after hc heq => ?_
  cases rest with
  | nil => exact hlast hc rfl
  | cons d rest =>
    obtain ⟨rfl, -⟩ := List.cons.inj heq
    exact hpair rest hc rfl

theorem splitLines_newline (rest : List Char) :
    splitLines ('\n' :: rest) = [] :: splitLines rest := by
  simp [splitLines, isLineBoundary]

theorem splitLines_ne_nil {text : List Char} (h : text ≠ []) : splitLines text ≠ [] := by
  fun_cases splitLines text with
  | case1 => exact absurd rfl h
  | case2 => exact List.cons_ne_nil _ _
  | case3 => exact List.cons_ne_nil _ _
  | case4 => exact consFirst_ne_nil _ _

/-- A newline ends a line, whatever comes before and after it. -/
theorem splitLines_append_newline (before after : List Char) :
    splitLines (before ++ '\n' :: after) = splitLines (before ++ ['\n']) ++ splitLines after := by
  induction before using splitLines.induct with
  | case1 =>
    rw [List.nil_append, List.nil_append, splitLines_newline, splitLines_newline]
    rfl
  | case2 rest ih => simp [splitLines, ih]
  | case3 c rest hpair hc ih | case4 c rest hpair hc ih =>
    by_cases hlast : c = '\r' → rest ≠ []
    · rw [splitLines_cons_append hpair hlast, splitLines_cons_append hpair hlast, ih]
      by_cases hboundary : isLineBoundary c = true
      · rw [if_pos hboundary, if_pos hboundary, List.cons_append]
      · have hne : splitLines (rest ++ ['\n']) ≠ [] := splitLines_ne_nil (by simp)
        rw [if_neg hboundary, if_neg hboundary]
        exact consFirst_append hne c _
    · -- A carriage return at the end makes a pair with the newline.
      rw [Classical.not_imp, not_not] at hlast
      obtain ⟨rfl, rfl⟩ := hlast
      simp [splitLines]

/-- A newline at the end of a text adds an empty line, or ends the last line. -/
theorem splitLines_concat_newline (text : List Char) :
    splitLines (text ++ ['\n']) = splitLines text ∨
      splitLines (text ++ ['\n']) = splitLines text ++ [[]] := by
  induction text using splitLines.induct with
  | case1 => exact .inr (by decide)
  | case2 rest ih =>
    simp only [splitLines, List.cons_append, List.cons.injEq, true_and]
    exact ih
  | case3 c rest hpair hc ih | case4 c rest hpair hc ih =>
    -- A carriage return at the end takes the newline in; any other character leaves it.
    by_cases hlast : c = '\r' → rest ≠ []
    · have hnil := splitLines_cons_append hpair hlast []
      rw [List.append_nil, List.append_nil] at hnil
      rw [splitLines_cons_append hpair hlast, hnil]
      by_cases hboundary : isLineBoundary c = true
      · rw [if_pos hboundary, if_pos hboundary]
        exact ih.imp (fun h => by rw [h]) fun h => by rw [h, List.cons_append]
      · rw [if_neg hboundary, if_neg hboundary]
        rcases ih with ih | ih
        · exact .inl (by rw [ih])
        · rw [ih]
          cases splitLines rest with
          | nil => exact .inl rfl
          | cons line lines => exact .inr rfl
    · rw [Classical.not_imp, not_not] at hlast
      obtain ⟨rfl, rfl⟩ := hlast
      exact .inl (by decide)

/-- A line without line boundaries is one line. -/
theorem splitLines_line {line : List Char} (h : ∀ c ∈ line, isLineBoundary c = false) :
    splitLines (line ++ ['\n']) = [line] := by
  induction line with
  | nil => decide
  | cons c rest ih =>
    rw [List.forall_mem_cons] at h
    have hc : c ≠ '\r' := by
      rintro rfl
      exact absurd h.1 (by decide)
    rw [splitLines_cons_append (fun _ hreturn => absurd hreturn hc)
      (fun hreturn => absurd hreturn hc), ih h.2, h.1]
    rfl

theorem splitLines_unlines (lines : List (List Char)) :
    splitLines (unlines lines) = lines.flatMap fun line => splitLines (line ++ ['\n']) := by
  induction lines with
  | nil => rfl
  | cons line lines ih =>
    rw [unlines_cons, splitLines_append_newline, ih, List.flatMap_cons]

/-- The lines of a text make up the text, but for a newline that it may lack. -/
theorem unlines_linesOf (text : List Char) :
    unlines (linesOf text) = text ∨ unlines (linesOf text) = text ++ ['\n'] := by
  induction text with
  | nil => exact .inl rfl
  | cons c rest ih =>
    rw [linesOf]
    split
    next hc =>
      rw [unlines_cons, hc]
      rw [List.nil_append]
      exact ih.imp (fun h => by rw [h]) fun h => by rw [h, List.cons_append]
    next =>
      cases hrest : linesOf rest with
      | nil =>
        rw [hrest] at ih
        have hnil : rest = [] := by simpa using ih
        exact .inr (by rw [hnil]; rfl)
      | cons line lines =>
        rw [hrest, unlines_cons] at ih
        rw [consFirst, unlines_cons, List.cons_append]
        exact ih.imp (fun h => by rw [h]) fun h => by rw [h, List.cons_append]

/-- A text is split into the parts of its lines, but for an empty line at its end. -/
theorem splitLines_eq_flatMap (text : List Char) :
    (linesOf text).flatMap (fun line => splitLines (line ++ ['\n'])) = splitLines text ∨
      (linesOf text).flatMap (fun line => splitLines (line ++ ['\n'])) =
        splitLines text ++ [[]] := by
  rw [← splitLines_unlines]
  rcases unlines_linesOf text with h | h
  · exact .inl (by rw [h])
  · rw [h]
    exact splitLines_concat_newline text

end Text

/-! ## What lines provide -/

namespace Registry

/-- A line of a text that names nothing, or something that could be a provider. -/
def IsLegal (line : List Char) : Prop := lineName line = [] ∨ isProviderName (lineName line) = true

instance (line : List Char) : Decidable (IsLegal line) := inferInstanceAs (Decidable (_ ∨ _))

/-- The name on a line of a text. -/
def nameOn? (line : List Char) : Option String :=
  if lineName line = [] then none else some (String.ofList (lineName line))

theorem parseLine_eq_ok {source : Path} {lineNumber : Int} {line : List Char}
    {name : Option String} :
    parseLine source lineNumber line = .ok name ↔ IsLegal line ∧ nameOn? line = name := by
  rw [parseLine, IsLegal, nameOn?]
  by_cases hempty : lineName line = []
  · simp [hempty]
  · by_cases hprovider : isProviderName (lineName line) = true
    · simp [hempty, hprovider]
    · simp [hempty, hprovider]

theorem isLegal_nil : IsLegal [] := .inl rfl

theorem nameOn?_nil : nameOn? [] = none := rfl

/-- The lines that the runtime sees in a line of a registry file. -/
def partsOf (line : String) : List (List Char) := Text.splitLines (line.toList ++ ['\n'])

/-- A line of a registry file in which the runtime finds no fault. -/
def IsReadable (line : String) : Prop := ∀ part ∈ partsOf line, IsLegal part

instance (line : String) : Decidable (IsReadable line) := inferInstanceAs (Decidable (∀ _ ∈ _, _))

/-- The names that the runtime finds in a line of a registry file. -/
def namesOn (line : String) : List String := (partsOf line).filterMap nameOn?

/-- **The runtime sees in a text what it sees in each line of it**: the same faults, and
the same names in the same order. -/
theorem provided_readLines (text : List Char) :
    ((∀ line ∈ Text.splitLines text, IsLegal line) ↔ ∀ line ∈ readLines text, IsReadable line) ∧
      (Text.splitLines text).filterMap nameOn? = (readLines text).flatMap namesOn := by
  have hparts : (readLines text).flatMap partsOf =
      (Text.linesOf text).flatMap fun line => Text.splitLines (line ++ ['\n']) := by
    rw [readLines, List.flatMap_map]
    simp [partsOf, String.toList_ofList]
  -- An empty line at the end is legal and has no name, so that it does not count.
  have hsplit := Text.splitLines_eq_flatMap text
  rw [← hparts] at hsplit
  constructor
  · have hall : (∀ line ∈ readLines text, IsReadable line) ↔
        ∀ part ∈ (readLines text).flatMap partsOf, IsLegal part := by
      simp only [IsReadable, List.mem_flatMap, forall_exists_index, and_imp]
      exact ⟨fun h part line hline hpart => h line hline part hpart,
        fun h line hline part hpart => h part line hline hpart⟩
    rw [hall]
    rcases hsplit with h | h
    · rw [h]
    · rw [h, List.forall_mem_append, List.forall_mem_singleton]
      exact ⟨fun h => ⟨h, isLegal_nil⟩, fun h => h.1⟩
  · have hnames : (readLines text).flatMap namesOn =
        ((readLines text).flatMap partsOf).filterMap nameOn? := by
      rw [List.filterMap_flatMap]
      rfl
    rw [hnames]
    rcases hsplit with h | h
    · rw [h]
    · rw [h, List.filterMap_append, List.filterMap_cons, nameOn?_nil, List.filterMap_nil,
        List.append_nil]

/-- The runtime finds on the line of a dotted name that name. -/
theorem partsOf_of_isDotted {name : String} (h : IsDotted name) : partsOf name = [name.toList] := by
  refine Text.splitLines_line fun c hc => ?_
  rw [Bool.eq_false_iff]
  intro hboundary
  have hblank := Text.isBlank_of_isLineBoundary hboundary
  rw [h.isBlank hc] at hblank
  cases hblank

theorem isReadable_of_isDotted {name : String} (h : IsDotted name) : IsReadable name := by
  rw [IsReadable, partsOf_of_isDotted h, List.forall_mem_singleton]
  exact (parseLine_eq_ok.mp (h.parseLine ⟨.none, []⟩ 0)).1

theorem namesOn_of_isDotted {name : String} (h : IsDotted name) : namesOn name = [name] := by
  rw [namesOn, partsOf_of_isDotted h, List.filterMap_cons,
    (parseLine_eq_ok.mp (h.parseLine ⟨.none, []⟩ 0)).2]
  rfl

end Registry

end ProviderRegistry
