import ProviderRegistry.Factory.Source
import ProviderRegistry.Proofs.Names
import ProviderRegistry.Proofs.Rows
import ProviderRegistry.Proofs.Sentences

/-!
# The text of a factory module

The rows that the text of a factory module is made of (`Words.rows`) and the statements that it is
meant to say (`Words.statements`). The rows fit (`Words.fit_rows`) and their tokens spell the
statements (`Words.spells_rows`), and so the text is read as these statements, whatever the date
says and whatever the generator is called (`rendered_as_statements`). The generator's name is the
one part of the text that is not written as a literal or a name everywhere: in the comment it stands
as it is.
-/

namespace ProviderRegistry.Syntax

theorem dottedParts_text (n : DottedName) :
    dottedParts n.text = (n.first :: n.rest).map (·.text) := by
  refine dottedParts_joinDots (List.cons_ne_nil _ _) fun part hpart => ?_
  obtain ⟨id, -, rfl⟩ := List.mem_map.mp hpart
  exact dottedParts_of_isIdentifier id.isIdentifier

/-- **A text of rows is the module that their tokens spell.** -/
theorem parseModule?_rows {rows : List Row} {stmts : List Stmt} (hfit : Row.Fit [] rows)
    (hrows : rows ≠ []) (hspells : SpellsBlock (Row.tokens 1 [] rows) stmts)
    (hnull : '\x00' ∉ Text.unlines (rows.map Row.chars)) :
    parseModule? (Text.unlines (rows.map Row.chars)) = some stmts := by
  have hlength := hfit.length_tokens_le 1
  rw [parseModule?, if_neg (by simpa using hnull), lex_rows hfit hrows, Option.bind_some]
  exact hspells.parseTokens (by rw [List.length_nil] at hlength; omega)

end ProviderRegistry.Syntax

namespace ProviderRegistry.Factory

open Syntax

/-- A word that is an identifier. -/
def word (text : String) (h : Text.isIdentifier text.toList = true := by decide) : Identifier :=
  ⟨text, h⟩

/-- The names that a factory module is about. -/
structure Words where
  /-- The module of the contract. -/
  module : DottedName
  /-- The name of the contract in its module. -/
  qualname : DottedName
  /-- The class that the module declares. -/
  className : Identifier

namespace Words

variable (w : Words) (generator date : String)

/-- What a factory module is documented as. -/
def summary : String :=
  "Singleton accessor for :class:`" ++ (w.module.text ++ "." ++ w.qualname.text) ++ "`."

/-- What a factory class is documented as. -/
def classSummary : String := "Holds the first registered " ++ w.qualname.text ++ ", or None."

theorem summary_eq : w.summary =
    "Singleton accessor for :class:`" ++ (w.module.text ++ "." ++ w.qualname.text) ++ "`." := rfl

theorem classSummary_eq :
    w.classSummary = "Holds the first registered " ++ w.qualname.text ++ ", or None." := rfl

/-- The statements of a factory module. -/
def statements : List Stmt := [
  .expression (.constant (.str w.summary)),
  .importFrom (some ⟨word "typing", []⟩) (some [⟨word "Optional", none⟩]) 0,
  .importFrom (some ⟨word "services", []⟩)
    (some [⟨word "ServiceLoader", none⟩, ⟨word "generated", none⟩]) 0,
  .importFrom (some w.module) (some [⟨w.qualname.first, none⟩]) 0,
  .classDef 11 w.className []
    [.call (.name (word "generated")) []
      [(some "value", .constant (.str generator)), (some "date", .constant (.str date))]]
    [.expression (.constant (.str w.classSummary)),
      .assign [.name (word "__loader")]
        (.call (.member (.name (word "ServiceLoader")) (word "load")) [dottedExpr w.qualname] []),
      .annotated (.name (word "__INSTANCE"))
        (some (.call (.name (word "next"))
          [.call (.name (word "iter")) [.name (word "__loader")] [], .constant .none] [])),
      .simple,
      .functionDef (word "get_instance") [.name (word "staticmethod")] [.simple]]]

/-! ## Rows -/

/-- The import of a name from a module. -/
def importPhrase (module : DottedName) (name : Identifier) : List Piece :=
  .keyword "from" :: .blank ::
    (Piece.dotted module ++ [.blank, .keyword "import", .blank, .name name])

/-- The import of the registry's own names. -/
def servicesPhrase : List Piece :=
  [.keyword "from", .blank, .name (word "services"), .blank, .keyword "import", .blank,
    .name (word "ServiceLoader"), .op ",", .blank, .name (word "generated")]

/-- The mark on the class, which records the generator and the date. -/
def markPhrase (generator date : String) : List Piece :=
  [.op "@", .name (word "generated"), .op "(", .name (word "value"), .op "=",
    .literal generator.toList, .op ",", .blank, .name (word "date"), .op "=",
    .literal date.toList, .op ")"]

def classPhrase : List Piece := [.keyword "class", .blank, .name w.className, .op ":"]

def loadPhrase : List Piece :=
  .name (word "__loader") :: .blank :: .op "=" :: .blank :: .name (word "ServiceLoader") ::
    .op "." :: .name (word "load") :: .op "(" :: (Piece.dotted w.qualname ++ [.op ")"])

def instancePhrase : List Piece :=
  .name (word "__INSTANCE") :: .op ":" :: .blank :: .name (word "Optional") :: .op "[" ::
    (Piece.dotted w.qualname ++ [.op "]", .blank, .op "=", .blank, .name (word "next"), .op "(",
      .name (word "iter"), .op "(", .name (word "__loader"), .op ")", .op ",", .blank,
      .keyword "None", .op ")"])

def accessorPhrase : List Piece :=
  .keyword "def" :: .blank :: .name (word "get_instance") :: .op "(" :: .op ")" :: .blank ::
    .op "->" :: .blank :: .name (word "Optional") :: .op "[" ::
    (Piece.dotted w.qualname ++ [.op "]", .op ":"])

def returnPhrase : List Piece :=
  [.keyword "return", .blank, .name w.className, .op ".", .name (word "__INSTANCE")]

/-- What the first row says, as a comment. -/
def headline (generator : String) : String :=
  " This module was generated by " ++ generator ++ ". Do not edit."

theorem headline_eq (generator : String) : headline generator =
    " This module was generated by " ++ generator ++ ". Do not edit." := rfl

/-- The rows of a factory module. -/
def rows : List Row := [
  .comment (headline generator).toList,
  .phrase 0 [.docstring w.summary.toList],
  .empty,
  .phrase 0 (importPhrase ⟨word "typing", []⟩ (word "Optional")),
  .empty,
  .phrase 0 servicesPhrase,
  .phrase 0 (importPhrase w.module w.qualname.first),
  .empty,
  .empty,
  .phrase 0 (markPhrase generator date),
  .phrase 0 w.classPhrase,
  .phrase 4 [.docstring w.classSummary.toList],
  .empty,
  .phrase 4 w.loadPhrase,
  .phrase 4 w.instancePhrase,
  .phrase 4 [.keyword "del", .blank, .name (word "__loader")],
  .empty,
  .phrase 4 [.op "@", .name (word "staticmethod")],
  .phrase 4 w.accessorPhrase,
  .phrase 8 w.returnPhrase]

/-! ## The rows are the text -/

theorem toList_render (s : Source) :
    s.render.toList = Text.unlines (s.lines.map String.toList) := by
  rw [Source.render, Text.unlines]
  induction s.lines with
  | nil => rfl
  | cons line lines ih => simp [ih]

theorem map_chars_rows {s : Source} (hmodule : w.module.text = s.contractModule)
    (hqualname : w.qualname.text = s.contractQualname) (hclass : w.className.text = s.className)
    (haccessor : s.accessor = "get_instance") :
    (w.rows s.generator s.date).map Row.chars = s.lines.map String.toList := by
  have hfirst : s.contractImport = w.qualname.first.text := by
    rw [Source.contractImport, ← hqualname, dottedParts_text]
    rfl
  have hquote (text : String) : (Text.quote text).toList = Text.quoteChars text.toList :=
    String.toList_ofList
  rw [rows, Source.lines, hfirst, haccessor, Source.contractName, ← hmodule, ← hqualname, ← hclass,
    importPhrase, importPhrase, loadPhrase, instancePhrase, accessorPhrase]
  simp only [List.map_cons, List.map_nil]
  simp only [List.cons.injEq]
  refine ⟨?_, ?_, ?_, ?_, ?_, ?_, ?_, ?_, ?_, ?_, ?_, ?_, ?_, ?_, ?_, ?_, ?_, ?_, ?_, ?_, trivial⟩
  all_goals
    simp only [Row.chars, List.flatMap_cons, List.flatMap_append, Piece.flatMap_dotted, Piece.chars,
      String.toList_append, List.append_assoc, List.flatMap_nil, List.append_nil, hquote,
      headline_eq, summary_eq, classSummary_eq]
    rfl

/-! ## The rows fit -/

/-- No name that a factory module is about is a keyword. -/
structure IsPlain (w : Words) : Prop where
  module : ∀ id ∈ w.module.first :: w.module.rest, id.text ∉ keywords
  qualname : ∀ id ∈ w.qualname.first :: w.qualname.rest, id.text ∉ keywords
  className : w.className.text ∉ keywords

variable {w} {generator date}

theorem isPlain_summary : (Piece.docstring w.summary.toList).IsPlain := by
  have hbefore : (Piece.docstring "Singleton accessor for :class:`".toList).IsPlain := by decide
  have hpoint : (Piece.docstring ".".toList).IsPlain := by decide
  have hafter : (Piece.docstring "`.".toList).IsPlain := by decide
  intro c hc
  simp only [summary_eq, String.toList_append, List.mem_append] at hc
  rcases hc with (hc | (hc | hc) | hc) | hc
  · exact hbefore c hc
  · exact Piece.plain_text _ c hc
  · exact hpoint c hc
  · exact Piece.plain_text _ c hc
  · exact hafter c hc

theorem isPlain_classSummary : (Piece.docstring w.classSummary.toList).IsPlain := by
  have hbefore : (Piece.docstring "Holds the first registered ".toList).IsPlain := by decide
  have hafter : (Piece.docstring ", or None.".toList).IsPlain := by decide
  intro c hc
  simp only [classSummary_eq, String.toList_append, List.mem_append] at hc
  rcases hc with (hc | hc) | hc
  · exact hbefore c hc
  · exact Piece.plain_text _ c hc
  · exact hafter c hc

/-- A documentation stands on a line of its own. -/
theorem isPhrase_docstring {text : List Char} (h : (Piece.docstring text).IsPlain) :
    IsPhrase [.docstring text] :=
  ⟨List.forall_mem_singleton.mpr h, .singleton _, rfl, ⟨_, rfl, rfl⟩⟩

/-- Of the control characters, the headline has those that the generator's name has. -/
theorem notMem_headline {c : Char} (hgenerator : c ∉ generator.toList) (hc : c.toNat < 32) :
    c ∉ (headline generator).toList := by
  have hbefore : ∀ d ∈ " This module was generated by ".toList, 32 ≤ d.toNat := by decide
  have hafter : ∀ d ∈ ". Do not edit.".toList, 32 ≤ d.toNat := by decide
  simp only [headline_eq, String.toList_append, List.mem_append, not_or]
  exact ⟨⟨fun h => absurd (hbefore c h) (by omega), hgenerator⟩,
    fun h => absurd (hafter c h) (by omega)⟩

theorem isPhrase_import {module : DottedName} {name : Identifier}
    (hmodule : ∀ id ∈ module.first :: module.rest, id.text ∉ keywords)
    (hname : name.text ∉ keywords) :
    IsPhrase (importPhrase module name) := by
  refine IsPhrase.insert_dotted [.blank] hmodule
    ⟨?_, of_decide_eq_true rfl, rfl, ⟨_, rfl, rfl⟩⟩
  simp only [List.cons_append, List.nil_append, List.forall_mem_cons]
  exact ⟨by decide, trivial, hmodule _ List.mem_cons_self, trivial, by decide, trivial, hname,
    List.forall_mem_nil _⟩

theorem isPhrase_mark : IsPhrase (markPhrase generator date) :=
  ⟨of_decide_eq_true rfl, of_decide_eq_true rfl, rfl, ⟨_, rfl, rfl⟩⟩

section

variable (h : w.IsPlain)

include h

theorem isPhrase_class : IsPhrase w.classPhrase := by
  refine ⟨?_, of_decide_eq_true rfl, rfl, ⟨_, rfl, rfl⟩⟩
  simp only [classPhrase, List.forall_mem_cons]
  exact ⟨by decide, trivial, h.className, by decide⟩

theorem isPhrase_load : IsPhrase w.loadPhrase := by
  refine IsPhrase.insert_dotted [.blank, .op "=", .blank, .name (word "ServiceLoader"),
    .op ".", .name (word "load"), .op "("] h.qualname
    ⟨?_, of_decide_eq_true rfl, rfl, ⟨_, rfl, rfl⟩⟩
  simp only [List.cons_append, List.nil_append, List.forall_mem_cons]
  exact ⟨by decide, trivial, by decide, trivial, by decide, by decide, by decide, by decide,
    h.qualname _ List.mem_cons_self, by decide⟩

theorem isPhrase_instance : IsPhrase w.instancePhrase := by
  refine IsPhrase.insert_dotted [.op ":", .blank, .name (word "Optional"), .op "["]
    h.qualname ⟨?_, of_decide_eq_true rfl, rfl, ⟨_, rfl, rfl⟩⟩
  simp only [List.cons_append, List.nil_append, List.forall_mem_cons]
  exact ⟨by decide, by decide, trivial, by decide, by decide, h.qualname _ List.mem_cons_self,
    by decide⟩

theorem isPhrase_accessor : IsPhrase w.accessorPhrase := by
  refine IsPhrase.insert_dotted [.blank, .name (word "get_instance"), .op "(", .op ")",
    .blank, .op "->", .blank, .name (word "Optional"), .op "["] h.qualname
    ⟨?_, of_decide_eq_true rfl, rfl, ⟨_, rfl, rfl⟩⟩
  simp only [List.cons_append, List.nil_append, List.forall_mem_cons]
  exact ⟨by decide, trivial, by decide, by decide, by decide, trivial, by decide, trivial,
    by decide, by decide, h.qualname _ List.mem_cons_self, by decide⟩

theorem isPhrase_return : IsPhrase w.returnPhrase := by
  refine ⟨?_, of_decide_eq_true rfl, rfl, ⟨_, rfl, rfl⟩⟩
  simp only [returnPhrase, List.forall_mem_cons]
  exact ⟨by decide, trivial, h.className, by decide⟩

/-- The rows of a factory module follow one another, whoever generates it. -/
theorem fit_rows (hgenerator : '\n' ∉ generator.toList) (date : String) :
    Row.Fit [] (w.rows generator date) := by
  have hcomment := notMem_headline hgenerator (by decide)
  have hoptional : IsPhrase (importPhrase ⟨word "typing", []⟩ (word "Optional")) :=
    isPhrase_import (by decide) (by decide)
  have hservices : IsPhrase servicesPhrase := ⟨by decide, of_decide_eq_true rfl, rfl, ⟨_, rfl, rfl⟩⟩
  have hdelete : IsPhrase [.keyword "del", .blank, .name (word "__loader")] :=
    ⟨by decide, of_decide_eq_true rfl, rfl, ⟨_, rfl, rfl⟩⟩
  have hstatic : IsPhrase [.op "@", .name (word "staticmethod")] :=
    ⟨by decide, of_decide_eq_true rfl, rfl, ⟨_, rfl, rfl⟩⟩
  have hcontract := isPhrase_import h.module (h.qualname w.qualname.first List.mem_cons_self)
  exact .comment hcomment <| .same (isPhrase_docstring isPlain_summary) rfl <| .empty <|
    .same hoptional rfl <| .empty <| .same hservices rfl <| .same hcontract rfl <| .empty <|
    .empty <| .same isPhrase_mark rfl <| .same (isPhrase_class h) rfl <|
    .deeper (isPhrase_docstring isPlain_classSummary) (by decide) (by decide) <| .empty <|
    .same (isPhrase_load h) rfl <| .same (isPhrase_instance h) rfl <| .same hdelete rfl <| .empty <|
    .same hstatic rfl <| .same (isPhrase_accessor h) rfl <|
    .deeper (isPhrase_return h) (by decide) (by decide) .done

end

/-! ## The tokens spell the statements -/

section

theorem spellsLine_import (module : DottedName) (name : Identifier) :
    SpellsLine ((importPhrase module name).filterMap Piece.kind?)
      (.importFrom (some module) (some [⟨name, none⟩]) 0) := by
  have hkinds : (importPhrase module name).filterMap Piece.kind? =
      .keyword "from" :: (Piece.dottedKinds module ++ .keyword "import" :: nameList [name]) := by
    simp only [importPhrase, List.filterMap_cons, List.filterMap_append, Piece.filterMap_dotted,
      Piece.kind?]
    rfl
  rw [hkinds]
  exact .importFrom module (List.cons_ne_nil name [])

theorem spellsLine_services :
    SpellsLine (servicesPhrase.filterMap Piece.kind?)
      (.importFrom (some ⟨word "services", []⟩)
        (some [⟨word "ServiceLoader", none⟩, ⟨word "generated", none⟩]) 0) :=
  .importFrom ⟨word "services", []⟩ (List.cons_ne_nil (word "ServiceLoader") [word "generated"])

variable (w)

theorem spellsLine_load :
    SpellsLine (w.loadPhrase.filterMap Piece.kind?)
      (.assign [.name (word "__loader")] (.call
        (.member (.name (word "ServiceLoader")) (word "load")) [dottedExpr w.qualname] [])) := by
  have hkinds : w.loadPhrase.filterMap Piece.kind? =
      .name (word "__loader") :: .op "=" :: ([.name (word "ServiceLoader")] ++
        [.op ".", .name (word "load")] ++ .op "(" ::
          (withCommas [Piece.dottedKinds w.qualname] ++ [.op ")"])) := by
    simp only [loadPhrase, List.filterMap_cons, List.filterMap_append, Piece.filterMap_dotted,
      Piece.kind?, withCommas, List.flatMap_nil, List.append_nil]
    rfl
  rw [hkinds]
  exact .assign (by decide) (.call [(Piece.dottedKinds w.qualname, dottedExpr w.qualname)] []
    (.member (.name _) _) (List.forall_mem_singleton.mpr (spells_dotted w.qualname))
    (List.forall_mem_nil _))

/-- The annotation of what may be missing. -/
theorem spells_optional : Spells (.name (word "Optional") :: .op "[" ::
    (Piece.dottedKinds w.qualname ++ [.op "]"])) (.subscript (.name (word "Optional"))) :=
  .subscript (.name _) (spells_dotted w.qualname)

theorem spellsLine_instance :
    SpellsLine (w.instancePhrase.filterMap Piece.kind?) (.annotated (.name (word "__INSTANCE"))
      (some (.call (.name (word "next"))
        [.call (.name (word "iter")) [.name (word "__loader")] [], .constant .none] []))) := by
  have hiter : Spells [.name (word "iter"), .op "(", .name (word "__loader"), .op ")"]
      (.call (.name (word "iter")) [.name (word "__loader")] []) :=
    .call [([.name (word "__loader")], .name (word "__loader"))] [] (.name (word "iter"))
      (List.forall_mem_singleton.mpr (.name _)) (List.forall_mem_nil _)
  have hnext : Spells [.name (word "next"), .op "(", .name (word "iter"), .op "(",
      .name (word "__loader"), .op ")", .op ",", .keyword "None", .op ")"]
      (.call (.name (word "next"))
        [.call (.name (word "iter")) [.name (word "__loader")] [], .constant .none] []) :=
    .call [(_, _), ([.keyword "None"], .constant .none)] [] (.name (word "next"))
      (List.forall_mem_cons.mpr ⟨hiter, List.forall_mem_singleton.mpr .none⟩)
      (List.forall_mem_nil _)
  have hkinds : w.instancePhrase.filterMap Piece.kind? =
      .name (word "__INSTANCE") :: .op ":" :: (.name (word "Optional") :: .op "[" ::
        (Piece.dottedKinds w.qualname ++ [.op "]"])) ++ .op "=" :: [.name (word "next"), .op "(",
          .name (word "iter"), .op "(", .name (word "__loader"), .op ")", .op ",", .keyword "None",
          .op ")"] := by
    simp only [instancePhrase, List.filterMap_cons, List.filterMap_append, Piece.filterMap_dotted,
      Piece.kind?, List.cons_append, List.append_assoc]
    rfl
  rw [hkinds]
  exact .annotated (by decide) w.spells_optional hnext

theorem spells_mark (generator date : String) :
    Spells ((markPhrase generator date).tail.filterMap Piece.kind?)
      (.call (.name (word "generated")) []
        [(some "value", .constant (.str generator)), (some "date", .constant (.str date))]) := by
  have htext (text : String) :
      Spells [.string (.text text.toList)] (.constant (.str text)) := by
    have h := Spells.text text.toList
    rwa [String.ofList_toList] at h
  exact .call [] [(word "value", _, _), (word "date", _, _)] (.name (word "generated"))
    (List.forall_mem_nil _)
    (List.forall_mem_cons.mpr ⟨htext generator, List.forall_mem_singleton.mpr (htext date)⟩)

theorem spellsLine_return : SpellsLine (w.returnPhrase.filterMap Piece.kind?) .simple :=
  .returned ((Spells.name w.className).member (word "__INSTANCE"))

/-- **The tokens of a factory module spell its statements.** -/
theorem spells_rows :
    SpellsBlock (Row.tokens 1 [] (w.rows generator date)) (w.statements generator date) := by
  have hbody := SpellsBlock.line 12 (.text w.classSummary.toList) <|
    .line 14 w.spellsLine_load <| .line 15 w.spellsLine_instance <|
    .line 16 (.delete (word "__loader")) <|
    .functionDef 18 19 20 21 (.name (word "staticmethod")) (word "get_instance") w.spells_optional
      (.line 20 w.spellsLine_return .done) .done
  have hblock := SpellsBlock.line 2 (.text w.summary.toList) <|
    .line 4 (spellsLine_import ⟨word "typing", []⟩ (word "Optional")) <|
    .line 6 spellsLine_services <| .line 7 (spellsLine_import w.module w.qualname.first) <|
    .classDef 10 11 12 21 (spells_mark generator date) w.className hbody .done
  rw [String.ofList_toList, String.ofList_toList] at hblock
  have hmark : (markPhrase generator date).filterMap Piece.kind? =
      .op "@" :: (markPhrase generator date).tail.filterMap Piece.kind? := rfl
  have hclass : w.classPhrase.filterMap Piece.kind? =
      [.keyword "class", .name w.className, .op ":"] := rfl
  have haccessor : w.accessorPhrase.filterMap Piece.kind? =
      .keyword "def" :: .name (word "get_instance") :: .op "(" :: .op ")" :: .op "->" ::
        (.name (word "Optional") :: .op "[" :: (Piece.dottedKinds w.qualname ++ [.op "]"]) ++
          [.op ":"]) := by
    simp only [accessorPhrase, List.filterMap_cons, List.filterMap_append, Piece.filterMap_dotted,
      Piece.kind?, List.cons_append, List.append_assoc]
    rfl
  convert hblock using 1
  · simp only [rows, Row.tokens, List.headD_nil, List.headD_cons, reduceIte, reduceCtorEq,
      Nat.reduceAdd, Nat.reduceEqDiff, hmark, hclass, haccessor, onLine_cons, onLine_append,
      onLine_nil, List.append_assoc, List.cons_append, List.nil_append, List.map_cons, List.map_nil]
    rfl
  · rfl

end

end Words

/-! ## Factory modules -/

/-- The rows of a factory module are read as its statements. -/
theorem Words.parseModule?_rows {w : Words} (h : w.IsPlain) {generator : String}
    (hgenerator : ∀ c ∈ ['\n', '\r', '\x00'], c ∉ generator.toList) (date : String) :
    parseModule? (Text.normalizeNewlines (Text.unlines ((w.rows generator date).map Row.chars))) =
      some (w.statements generator date) := by
  have hfit := fit_rows h (hgenerator '\n' (by simp)) date
  -- Of the rows, the comment alone could have control characters.
  have hcontrol {c : Char} (hc : c ∈ ['\r', '\x00']) :
      c ∉ Text.unlines ((w.rows generator date).map Row.chars) := by
    have hsmall : ∀ c ∈ ['\r', '\x00'], c ≠ '\n' ∧ c.toNat < 32 := by decide
    obtain ⟨hnewline, hlt⟩ := hsmall c hc
    intro hmem
    rcases hfit.le_toNat hmem with heq | hle | ⟨text, hrow, htext⟩
    · exact hnewline heq
    · omega
    · obtain rfl : text = (headline generator).toList := by simpa [rows] using hrow
      exact notMem_headline (hgenerator c (List.mem_cons_of_mem _ hc)) hlt htext
  rw [Text.normalizeNewlines_eq_self (hcontrol (by simp))]
  exact Syntax.parseModule?_rows hfit (List.cons_ne_nil _ _) w.spells_rows (hcontrol (by simp))

/-- A dotted name whose components are no keywords, so that it can be written in a module. -/
def IsNameable (name : String) : Prop :=
  IsDotted name ∧ ∀ part ∈ dottedParts name, part ∉ keywords

instance (name : String) : Decidable (IsNameable name) := inferInstanceAs (Decidable (_ ∧ _))

theorem exists_identifiers {parts : List String}
    (h : ∀ part ∈ parts, Text.isIdentifier part.toList = true) :
    ∃ ids : List Identifier, ids.map (·.text) = parts := by
  induction parts with
  | nil => exact ⟨[], rfl⟩
  | cons part parts ih =>
    obtain ⟨hpart, hparts⟩ := List.forall_mem_cons.mp h
    obtain ⟨ids, rfl⟩ := ih hparts
    exact ⟨⟨part, hpart⟩ :: ids, rfl⟩

theorem IsNameable.exists_dottedName {name : String} (h : IsNameable name) :
    ∃ n : DottedName, n.text = name ∧ ∀ id ∈ n.first :: n.rest, id.text ∉ keywords := by
  obtain ⟨hdotted, hkeywords⟩ := h
  have hidentifiers : ∀ part ∈ dottedParts name, Text.isIdentifier part.toList = true := by
    intro part hpart
    obtain ⟨chars, hchars, rfl⟩ := List.mem_map.mp hpart
    rw [String.toList_ofList]
    exact hdotted chars hchars
  obtain ⟨ids, hids⟩ := exists_identifiers hidentifiers
  cases ids with
  | nil => exact absurd hids.symm (dottedParts_ne_nil name)
  | cons first rest =>
    refine ⟨⟨first, rest⟩, ?_, fun id hid => hkeywords _ ?_⟩
    · rw [DottedName.text, hids, joinDots_dottedParts]
    · rw [← hids]
      exact List.mem_map_of_mem hid

theorem isIdentifier_append {before after : List Char} (hbefore : Text.isIdentifier before = true)
    (hafter : ∀ c ∈ after, Text.isIdentifierContinue c = true) :
    Text.isIdentifier (before ++ after) = true := by
  cases before with
  | nil => cases hbefore
  | cons c before =>
    rw [Text.isIdentifier, Bool.and_eq_true] at hbefore
    rw [List.cons_append, Text.isIdentifier, List.all_append, hbefore.1, hbefore.2, Bool.true_and,
      Bool.true_and, List.all_eq_true]
    exact hafter

/-- The class of a factory can be declared. -/
theorem isIdentifier_factoryClass {qualname : String} (h : IsDotted qualname) :
    Text.isIdentifier (Naming.factoryClass (splitLastDot qualname).2).toList = true ∧
      Naming.factoryClass (splitLastDot qualname).2 ∉ keywords := by
  have hlast : Text.isIdentifier (splitLastDot qualname).2.toList = true := by
    rw [splitLastDot_snd, List.getLastD_eq_getLast?,
      List.getLast?_eq_getLast_of_ne_nil (dottedParts_ne_nil qualname)]
    obtain ⟨chars, hchars, heq⟩ := List.mem_map.mp (List.getLast_mem (dottedParts_ne_nil qualname))
    rw [Option.getD_some, ← heq, String.toList_ofList]
    exact h chars hchars
  have hsuffix : ∀ c ∈ Naming.factorySuffix.toList, Text.isIdentifierContinue c = true := by decide
  refine ⟨?_, fun hkeyword => ?_⟩
  · rw [Naming.factoryClass, String.toList_append]
    exact isIdentifier_append hlast hsuffix
  · have hnone : ∀ word ∈ keywords, ¬ Naming.factorySuffix.toList <:+ word.toList := by decide
    refine hnone _ hkeyword ?_
    rw [Naming.factoryClass, String.toList_append]
    exact List.suffix_append _ _

/-- The text of a factory module starts with the generator's name, as it is. -/
theorem exists_toList_render (s : Source) : ∃ rest,
    s.render.toList = "# This module was generated by ".toList ++ (s.generator.toList ++ rest) := by
  rw [Words.toList_render, Source.lines, List.map_cons, Text.unlines_cons, String.toList_append,
    String.toList_append, List.append_assoc, List.append_assoc]
  exact ⟨_, rfl⟩

end ProviderRegistry.Factory
