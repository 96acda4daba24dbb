import Mathlib.Data.List.TakeWhile
import ProviderRegistry.Proofs.Outputs
import ProviderRegistry.Registry.Line

/-!
# Dotted names

Names whose components are identifiers. Dots put them together and take them apart, and a
dotted name can name a file and stand on a line of a registry file, which names it again.
-/

namespace ProviderRegistry

/-! ## Identifiers -/

namespace Text

/-- Whether a character can stand in an identifier. -/
def isNameChar (c : Char) : Bool := isIdentifierStart c || isIdentifierContinue c

theorem isNameChar_of_isIdentifier {text : List Char} (h : isIdentifier text = true) :
    ∀ c ∈ text, isNameChar c = true := by
  cases text with
  | nil => exact List.forall_mem_nil _
  | cons c rest =>
    simp only [isIdentifier, Bool.and_eq_true, List.all_eq_true] at h
    rw [List.forall_mem_cons]
    exact ⟨by simp [isNameChar, h.1], fun d hd => by simp [isNameChar, h.2 d hd]⟩

/-- The code points of the blanks. -/
def blankPoints : List Nat :=
  [9, 10, 11, 12, 13, 28, 29, 30, 31, 32, 133, 160, 5760, 8192, 8193, 8194, 8195, 8196, 8197,
    8198, 8199, 8200, 8201, 8202, 8232, 8233, 8239, 8287, 12288]

theorem mem_blankPoints {c : Char} (h : isBlank c = true) : c.toNat ∈ blankPoints := by
  simp only [isBlank, Bool.or_eq_true, Bool.and_eq_true, decide_eq_true_eq, beq_iff_eq] at h
  simp only [blankPoints, List.mem_cons, List.not_mem_nil, or_false]
  omega

theorem isNameChar_of_blankPoints :
    ∀ n ∈ blankPoints, isNameChar (Char.ofNat n) = false := by decide +kernel

/-- No blank stands in an identifier. -/
theorem isBlank_of_isNameChar {c : Char} (h : isNameChar c = true) : isBlank c = false := by
  rw [Bool.eq_false_iff]
  intro hblank
  have hfalse := isNameChar_of_blankPoints c.toNat (mem_blankPoints hblank)
  rw [Char.ofNat_toNat, h] at hfalse
  cases hfalse

/-- Whatever ends a line is a blank. -/
theorem isBlank_of_isLineBoundary {c : Char} (h : isLineBoundary c = true) : isBlank c = true := by
  simp only [isLineBoundary, Bool.or_eq_true, Bool.and_eq_true, decide_eq_true_eq, beq_iff_eq] at h
  simp only [isBlank, Bool.or_eq_true, Bool.and_eq_true, decide_eq_true_eq, beq_iff_eq]
  omega

theorem trimStart_eq_self {text : List Char} (h : ∀ c ∈ text, isBlank c = false) :
    trimStart text = text := by
  cases text with
  | nil => rfl
  | cons c rest =>
    rw [trimStart, List.dropWhile_cons_of_neg]
    simp [h c List.mem_cons_self]

theorem trim_eq_self {text : List Char} (h : ∀ c ∈ text, isBlank c = false) :
    trim text = text := by
  rw [trim, trimStart_eq_self h, trimEnd, trimStart_eq_self, List.reverse_reverse]
  intro c hc
  exact h c (List.mem_reverse.mp hc)

/-- Separators that a text does not have do not take it apart. -/
theorem pieces_congr {separator separator' : Char → Bool} {text : List Char}
    (h : ∀ c ∈ text, separator c = separator' c) :
    pieces separator text = pieces separator' text := by
  induction text with
  | nil => rfl
  | cons c rest ih =>
    rw [List.forall_mem_cons] at h
    rw [pieces, pieces, h.1, ih h.2]

/-- The characters of a text are those of its pieces, and the separators. -/
theorem mem_pieces (separator : Char → Bool) {text : List Char} {c : Char} (h : c ∈ text) :
    separator c = true ∨ ∃ piece ∈ pieces separator text, c ∈ piece := by
  induction text with
  | nil => cases h
  | cons d rest ih =>
    rw [pieces]
    split
    next hd =>
      rcases List.mem_cons.mp h with rfl | h
      · exact .inl hd
      · refine (ih h).imp_right ?_
        rintro ⟨piece, hpiece, hc⟩
        exact ⟨piece, List.mem_cons_of_mem _ hpiece, hc⟩
    next hd =>
      cases hrest : pieces separator rest with
      | nil => exact absurd hrest (pieces_ne_nil rest)
      | cons first others =>
        rw [hrest] at ih
        rcases List.mem_cons.mp h with rfl | h
        · exact .inr ⟨_, List.mem_cons_self, List.mem_cons_self⟩
        · refine (ih h).imp_right ?_
          rintro ⟨piece, hpiece, hc⟩
          rcases List.mem_cons.mp hpiece with rfl | hpiece
          · exact ⟨_, List.mem_cons_self, List.mem_cons_of_mem _ hc⟩
          · exact ⟨piece, List.mem_cons_of_mem _ hpiece, hc⟩

theorem pieces_of_isIdentifier {text : List Char} (h : isIdentifier text = true) :
    pieces (· == '.') text = [text] := by
  refine pieces_eq_singleton fun c hc => ?_
  rw [beq_eq_false_iff_ne]
  rintro rfl
  have hdot : isNameChar '.' = false := by decide
  rw [isNameChar_of_isIdentifier h _ hc] at hdot
  cases hdot

/-- A text is its pieces with dots between them. -/
theorem intercalate_pieces (text : List Char) :
    ['.'].intercalate (pieces (· == '.') text) = text := by
  induction text with
  | nil => rfl
  | cons c rest ih =>
    rw [pieces]
    cases hpieces : pieces (· == '.') rest with
    | nil => exact absurd hpieces (pieces_ne_nil rest)
    | cons piece more =>
      rw [hpieces] at ih
      split
      next hdot => rw [List.intercalate_cons_cons, ih, eq_of_beq hdot]; rfl
      next =>
        rw [consFirst, ← ih]
        cases more with
        | nil => simp
        | cons next more => simp [List.intercalate_cons_cons]

/-- No piece has a separator. -/
theorem eq_false_of_mem_pieces {separator : Char → Bool} {text piece : List Char}
    (h : piece ∈ pieces separator text) {c : Char} (hc : c ∈ piece) : separator c = false := by
  induction text generalizing piece with
  | nil =>
    obtain rfl := List.mem_singleton.mp h
    cases hc
  | cons d rest ih =>
    rw [pieces] at h
    split at h
    next =>
      rcases List.mem_cons.mp h with rfl | h
      · cases hc
      · exact ih h hc
    next hd =>
      cases hrest : pieces separator rest with
      | nil => exact absurd hrest (pieces_ne_nil rest)
      | cons first others =>
        rw [hrest] at h ih
        rcases List.mem_cons.mp h with rfl | h
        · rcases List.mem_cons.mp hc with rfl | hc
          · exact Bool.eq_false_iff.mpr hd
          · exact ih List.mem_cons_self hc
        · exact ih (List.mem_cons_of_mem _ h) hc

theorem pieces_dotted (before after : String) :
    pieces (· == '.') (before ++ "." ++ after).toList =
      pieces (· == '.') before.toList ++ pieces (· == '.') after.toList := by
  have hdot : ".".toList = ['.'] := rfl
  rw [String.toList_append, String.toList_append, List.append_assoc, hdot]
  exact pieces_append (by simp) _ _

end Text

/-! ## Components -/

theorem dottedParts_append (before after : String) :
    dottedParts (before ++ "." ++ after) = dottedParts before ++ dottedParts after := by
  rw [dottedParts, Text.pieces_dotted, List.map_append]
  rfl

theorem dottedParts_of_isIdentifier {name : String} (h : Text.isIdentifier name.toList = true) :
    dottedParts name = [name] := by
  rw [dottedParts, Text.pieces_of_isIdentifier h, List.map_singleton, String.ofList_toList]

theorem dottedParts_of_notMem {name : String} (h : '.' ∉ name.toList) :
    dottedParts name = [name] := by
  rw [dottedParts, Text.pieces_eq_singleton, List.map_singleton, String.ofList_toList]
  intro c hc
  rw [beq_eq_false_iff_ne]
  rintro rfl
  exact h hc

/-- A component of a name has no dots. -/
theorem dot_notMem_of_mem {name part : String} (h : part ∈ dottedParts name) :
    '.' ∉ part.toList := by
  obtain ⟨piece, hpiece, rfl⟩ := List.mem_map.mp h
  rw [String.toList_ofList]
  intro hdot
  have hfalse := Text.eq_false_of_mem_pieces hpiece hdot
  cases hfalse

theorem dottedParts_of_mem {name part : String} (h : part ∈ dottedParts name) :
    dottedParts part = [part] :=
  dottedParts_of_notMem (dot_notMem_of_mem h)

theorem dottedParts_ne_nil (name : String) : dottedParts name ≠ [] :=
  fun h => Text.pieces_ne_nil _ (List.map_eq_nil_iff.mp h)

/-- A name is its components with dots between them. -/
theorem joinDots_dottedParts (name : String) : joinDots (dottedParts name) = name := by
  rw [joinDots, dottedParts, ← String.toList_inj, String.toList_intercalate, List.map_map]
  simpa [Function.comp_def] using Text.intercalate_pieces name.toList

/-- A further component comes after a separator. -/
theorem intercalate_concat (separator : String) {parts : List String} (h : parts ≠ [])
    (last : String) :
    separator.intercalate (parts ++ [last]) = separator.intercalate parts ++ separator ++ last := by
  induction parts with
  | nil => exact absurd rfl h
  | cons part rest ih =>
    cases rest with
    | nil => simp [String.intercalate_cons_cons]
    | cons next rest =>
      have hrest := ih (List.cons_ne_nil _ _)
      simp only [List.cons_append, String.intercalate_cons_cons] at hrest ⊢
      rw [hrest]
      simp only [String.append_assoc]

theorem joinDots_concat {parts : List String} (h : parts ≠ []) (last : String) :
    joinDots (parts ++ [last]) = joinDots parts ++ "." ++ last :=
  intercalate_concat "." h last

theorem dottedParts_joinDots {parts : List String} (hne : parts ≠ [])
    (h : ∀ part ∈ parts, dottedParts part = [part]) : dottedParts (joinDots parts) = parts := by
  induction parts with
  | nil => exact absurd rfl hne
  | cons part rest ih =>
    rw [List.forall_mem_cons] at h
    cases rest with
    | nil => rw [joinDots, String.intercalate_singleton, h.1]
    | cons next rest =>
      have hjoin : joinDots (part :: next :: rest) = part ++ "." ++ joinDots (next :: rest) :=
        String.intercalate_cons_cons
      rw [hjoin, dottedParts_append, h.1, ih (List.cons_ne_nil _ _) h.2]
      rfl

theorem joinDots_inj {parts parts' : List String} (hempty : "" ∉ parts) (hempty' : "" ∉ parts')
    (h : ∀ part ∈ parts, dottedParts part = [part])
    (h' : ∀ part ∈ parts', dottedParts part = [part]) :
    joinDots parts = joinDots parts' ↔ parts = parts' := by
  -- What no components are joined to is the empty name, and this has one component.
  have hsplit {parts : List String} (h : ∀ part ∈ parts, dottedParts part = [part]) :
      dottedParts (joinDots parts) = if parts = [] then [""] else parts := by
    split
    next hnil =>
      rw [hnil]
      rfl
    next hne => exact dottedParts_joinDots hne h
  refine ⟨fun heq => ?_, congrArg joinDots⟩
  have hparts := congrArg dottedParts heq
  rw [hsplit h, hsplit h'] at hparts
  split at hparts
  next hnil =>
    split at hparts
    next hnil' => exact hnil.trans hnil'.symm
    next => exact absurd (hparts ▸ List.mem_singleton.mpr rfl) hempty'
  next =>
    split at hparts
    next => exact absurd (hparts ▸ List.mem_singleton.mpr rfl) hempty
    next => exact hparts

/-- The components of the name before the last. -/
theorem splitLastDot_fst (name : String) :
    (splitLastDot name).1 = joinDots (dottedParts name).dropLast := by
  rw [splitLastDot, joinDots, dottedParts, ← List.map_dropLast, ← String.toList_inj,
    String.toList_intercalate, String.toList_ofList, List.map_map]
  simp [Function.comp_def]

/-- The last component of a name. -/
theorem splitLastDot_snd (name : String) :
    (splitLastDot name).2 = (dottedParts name).getLastD "" := by
  rw [splitLastDot, dottedParts]
  exact (List.getLastD_map (f := String.ofList) (a := [])).symm

theorem dottedParts_splitLastDot_snd (name : String) :
    dottedParts (splitLastDot name).2 = [(splitLastDot name).2] := by
  rw [splitLastDot_snd, List.getLastD_eq_getLast?,
    List.getLast?_eq_getLast_of_ne_nil (dottedParts_ne_nil name)]
  exact dottedParts_of_mem (List.getLast_mem _)

theorem qualify_of_ne_empty {qualifier : String} (h : qualifier ≠ "") (name : String) :
    qualify qualifier name = qualifier ++ "." ++ name := by
  rw [qualify, if_neg fun he => h (String.isEmpty_iff.mp he)]

theorem qualify_right_inj {qualifier name name' : String} :
    qualify qualifier name = qualify qualifier name' ↔ name = name' := by
  rw [qualify, qualify]
  split
  next => rfl
  next => exact String.append_right_inj _

/-- The components of a qualified name are those of the qualifier, if there is one, and the
name. -/
theorem dottedParts_qualify (qualifier : String) {name : String} (h : dottedParts name = [name]) :
    dottedParts (qualify qualifier name) =
      (if qualifier = "" then [] else dottedParts qualifier) ++ [name] := by
  by_cases hempty : qualifier = ""
  · rw [if_pos hempty, hempty]
    exact h
  · rw [if_neg hempty, qualify_of_ne_empty hempty, dottedParts_append, h]

/-- What a name without dots is qualified with is the part before the last dot. -/
theorem splitLastDot_qualify (qualifier : String) {name : String} (h : dottedParts name = [name]) :
    splitLastDot (qualify qualifier name) = (qualifier, name) := by
  refine Prod.ext ?_ ?_
  · rw [splitLastDot_fst, dottedParts_qualify qualifier h, List.dropLast_concat]
    split
    next hempty => rw [hempty]; rfl
    next => rw [joinDots_dottedParts]
  · rw [splitLastDot_snd, dottedParts_qualify qualifier h, List.getLastD_concat]

/-! ## Dotted names -/

/-- A name whose components are identifiers. -/
def IsDotted (name : String) : Prop :=
  ∀ part ∈ Text.pieces (· == '.') name.toList, Text.isIdentifier part = true

instance (name : String) : Decidable (IsDotted name) :=
  inferInstanceAs (Decidable (∀ _ ∈ _, _))

namespace IsDotted

theorem of_isIdentifier {name : String} (h : Text.isIdentifier name.toList = true) :
    IsDotted name := by
  rw [IsDotted, Text.pieces_of_isIdentifier h]
  exact List.forall_mem_singleton.mpr h

theorem append_iff {before after : String} :
    IsDotted (before ++ "." ++ after) ↔ IsDotted before ∧ IsDotted after := by
  rw [IsDotted, Text.pieces_dotted, List.forall_mem_append]
  rfl

theorem joinDots {parts : List String} (hne : parts ≠ []) (h : ∀ part ∈ parts, IsDotted part) :
    IsDotted (joinDots parts) := by
  induction parts with
  | nil => exact absurd rfl hne
  | cons part rest ih =>
    rw [List.forall_mem_cons] at h
    cases rest with
    | nil =>
      rw [ProviderRegistry.joinDots, String.intercalate_singleton]
      exact h.1
    | cons next rest =>
      rw [ProviderRegistry.joinDots, String.intercalate_cons_cons]
      exact append_iff.mpr ⟨h.1, ih (List.cons_ne_nil _ _) h.2⟩

theorem qualify {qualifier name : String} (hqualifier : qualifier = "" ∨ IsDotted qualifier)
    (h : IsDotted name) : IsDotted (qualify qualifier name) := by
  rw [ProviderRegistry.qualify]
  split
  next => exact h
  next hne =>
    refine append_iff.mpr ⟨hqualifier.resolve_left ?_, h⟩
    rintro rfl
    exact hne rfl

theorem dottedParts {name part : String} (h : IsDotted name)
    (hpart : part ∈ dottedParts name) : IsDotted part := by
  obtain ⟨chars, hchars, rfl⟩ := List.mem_map.mp hpart
  exact of_isIdentifier (by rw [String.toList_ofList]; exact h chars hchars)

variable {name : String} (h : IsDotted name)

include h

theorem isNameChar {c : Char} (hc : c ∈ name.toList) : c = '.' ∨ Text.isNameChar c = true := by
  -- A character is a dot or stands in one of the components.
  refine (Text.mem_pieces (· == '.') hc).imp (fun h => eq_of_beq h) ?_
  rintro ⟨piece, hpiece, hc⟩
  exact Text.isNameChar_of_isIdentifier (h piece hpiece) c hc

theorem notMem {c : Char} (hdot : c ≠ '.') (hc : Text.isNameChar c = false) : c ∉ name.toList := by
  intro hmem
  rw [(h.isNameChar hmem).resolve_left hdot] at hc
  cases hc

theorem isBlank {c : Char} (hc : c ∈ name.toList) : Text.isBlank c = false := by
  rcases h.isNameChar hc with rfl | hc
  · decide
  · exact Text.isBlank_of_isNameChar hc

theorem ne_nil : name.toList ≠ [] := by
  intro hnil
  have hempty := h [] (by rw [hnil]; exact List.mem_singleton.mpr rfl)
  cases hempty

theorem isFileName : IsFileName name := by
  refine ⟨h.notMem (by decide) (by decide), ?_, ?_, ?_⟩
  · rintro rfl
    exact h.ne_nil rfl
  · rintro rfl
    exact absurd h (by decide)
  · rintro rfl
    exact absurd h (by decide)

/-- The line that holds a dotted name names it. -/
theorem parseLine (source : Path) (lineNumber : Int) :
    Registry.parseLine source lineNumber name.toList = .ok (some name) := by
  have hsign : name.toList.takeWhile (· != '#') = name.toList := by
    rw [List.takeWhile_eq_self_iff]
    intro c hc
    rw [bne_iff_ne]
    rintro rfl
    exact h.notMem (by decide) (by decide) hc
  have hline : Registry.lineName name.toList = name.toList := by
    rw [Registry.lineName, hsign]
    exact Text.trim_eq_self fun c hc => h.isBlank hc
  -- A provider's name may have colons too, but a dotted name has none.
  have hprovider : Registry.isProviderName name.toList = true := by
    rw [Registry.isProviderName, List.all_eq_true]
    have hpieces : Text.pieces (fun c => c == '.' || c == ':') name.toList =
        Text.pieces (· == '.') name.toList := by
      refine Text.pieces_congr fun c hc => ?_
      have hcolon : (c == ':') = false := by
        rw [beq_eq_false_iff_ne]
        rintro rfl
        exact h.notMem (by decide) (by decide) hc
      rw [hcolon, Bool.or_false]
    rw [hpieces]
    exact h
  have hempty : name.toList.isEmpty = false := by
    rw [List.isEmpty_eq_false_iff]
    exact h.ne_nil
  simp only [Registry.parseLine, hline, hempty, hprovider, Bool.false_eq_true, if_false, if_true,
    String.ofList_toList]

end IsDotted

/-- A dotted name is put together again from its part before the last dot and the one after
it. -/
theorem qualify_splitLastDot {name : String} (h : IsDotted name) :
    qualify (splitLastDot name).1 (splitLastDot name).2 = name := by
  have hparts := dottedParts_ne_nil name
  rw [splitLastDot_fst, splitLastDot_snd, List.getLastD_eq_getLast?,
    List.getLast?_eq_getLast_of_ne_nil hparts, Option.getD_some]
  conv_rhs => rw [← joinDots_dottedParts name, ← List.dropLast_append_getLast hparts]
  by_cases hinit : (dottedParts name).dropLast = []
  · rw [hinit, joinDots, String.intercalate_nil, List.nil_append, joinDots,
      String.intercalate_singleton]
    rfl
  · have hdotted : IsDotted (joinDots (dottedParts name).dropLast) :=
      .joinDots hinit fun part hpart => h.dottedParts (List.dropLast_subset _ hpart)
    rw [joinDots_concat hinit]
    exact qualify_of_ne_empty (fun hempty => hdotted.ne_nil (by rw [hempty]; rfl)) _

end ProviderRegistry
