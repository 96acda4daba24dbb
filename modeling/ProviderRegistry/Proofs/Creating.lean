import ProviderRegistry.Proofs.Overwriting

/-!
# Creating modules

An output is called for modules any number of times, and the files may change in whatever way
between two calls. It hands out the file of a module once (`created_once`): a call that cannot
open the file leaves the output as it was, so that a later one may open it; after the first
that can, every further call for the module is refused before any file is looked at.

What is written down is the full name of a module, and what is opened is a path. Both tell
modules apart, as long as packages and modules are named by identifiers
(`Call.splitLastDot_name`, `Call.path_eq`).
-/

namespace ProviderRegistry.Registry.Output

open Factory

/-! ## Calls -/

/-- A call for a module, and the files that it meets. -/
structure Call where
  package : String
  module : String
  /-- What the caller writes to the file, if one is handed out. -/
  text : List Char
  tree : FileTree

namespace Call

variable {c d : Call} {output : Output}

/-- What a module is asked for by. -/
def pair (c : Call) : String × String := (c.package, c.module)

/-- The name that is written down for it. -/
def name (c : Call) : String := qualify c.package c.module

/-- The path that is opened for it. -/
def path (c : Call) (output : Output) : Path := output.modulePath c.package c.module

/-- What a call comes to: the output and the files after it, and its result. -/
def answer (c : Call) (output : Output) : Output × FileTree × Except OutputError Unit :=
  output.writeModule c.tree c.package c.module c.text

/-- The package is empty or a dotted name, and the module is an identifier. -/
def IsNamed (c : Call) : Prop :=
  (c.package = "" ∨ IsDotted c.package) ∧ Text.isIdentifier c.module.toList = true

instance (c : Call) : Decidable c.IsNamed := inferInstanceAs (Decidable (_ ∧ _))

/-- The name of a module tells what was asked for. -/
theorem splitLastDot_name (h : c.IsNamed) : splitLastDot c.name = c.pair :=
  splitLastDot_qualify c.package (dottedParts_of_isIdentifier h.2)

theorem name_eq_iff (hc : c.IsNamed) (hd : d.IsNamed) : c.name = d.name ↔ c.pair = d.pair := by
  constructor
  · intro h
    rw [← splitLastDot_name hc, ← splitLastDot_name hd, h]
  · intro h
    rw [name, name, (Prod.mk.inj h).1, (Prod.mk.inj h).2]

/-- The path of a module is the place of its name. -/
theorem path_eq (h : c.IsNamed) (output : Output) : c.path output = placeOf output c.name := by
  have hdotted : IsDotted c.module := .of_isIdentifier h.2
  have hdot : '.' ∉ c.module.toList := by
    intro hmem
    have hparts := dottedParts_of_isIdentifier h.2
    exact dot_notMem_of_mem (hparts ▸ List.mem_singleton_self _) hmem
  exact modulePath_eq h.1 hdot (hdotted.notMem (by decide) (by decide)) output

/-- Different modules have different places, whichever files there are. -/
theorem reach_path_ne (hc : c.IsNamed) (hd : d.IsNamed) (h : c.pair ≠ d.pair) (output : Output)
    (tree : FileTree) : tree.reach (c.path output) ≠ tree.reach (d.path output) := by
  rw [path_eq hc, path_eq hd]
  exact reach_placeOf_ne (fun hname => h ((name_eq_iff hc hd).mp hname)) tree output

end Call

/-! ## One call -/

/-- Whether a result is that of a caller who has got a file. It may still be that the file
cannot hold the text. -/
def opensFile : Except OutputError Unit → Bool
  | .ok () => true
  | .error (.text (.encode _)) => true
  | .error _ => false

/-- How a call is answered, by whether the file of its module has been handed out before. -/
inductive Answered (output : Output) (c : Call) (before : Prop) : Prop
  /-- The module is there already, and no file is touched. -/
  | refused (hbefore : before)
      (hanswer : c.answer output = (output, c.tree, .error (.recreated c.name)))
  /-- The file cannot be opened, and no file has changed. -/
  | unopened {left : FileTree} {e : FileError} (hnew : ¬ before)
      (hopen : c.tree.openForWriting (c.path output) = (left, .error e))
      (hanswer : c.answer output = (output, left, .error (.text (.file e))))
      (hfiles : c.tree.Extends left)
  /-- There is no encoding to write in. -/
  | unknown {left : FileTree} (hnew : ¬ before)
      (hopen : c.tree.openForWriting (c.path output) = (left, .ok ()))
      (hencoding : Text.Encoding.ofName? output.encoding = none)
      (hanswer : c.answer output =
        (output, left, .error (.text (.unknownEncoding output.encoding))))
  /-- The file is handed out, and the module is there from now on. -/
  | opened {opened left : FileTree} {result : Except OutputError Unit} (hnew : ¬ before)
      (hopen : c.tree.openForWriting (c.path output) = (opened, .ok ()))
      (hencoding : (Text.Encoding.ofName? output.encoding).isSome = true)
      (hanswer : c.answer output = (output.withCreated c.name, left, result))
      (hresult : opensFile result = true)

theorem Answered.congr {output : Output} {c : Call} {before before' : Prop}
    (h : Answered output c before) (hiff : before ↔ before') : Answered output c before' :=
  propext hiff ▸ h

/-- **A call is answered** by whether its module has been written down. -/
theorem answered (output : Output) (c : Call) :
    Answered output c (c.name ∈ output.created) := by
  by_cases hcreated : output.created.contains c.name = true
  · refine .refused (List.contains_iff_mem.mp hcreated) ?_
    rw [Call.answer, writeModule]
    exact if_pos hcreated
  · have hnew : c.name ∉ output.created := fun h => hcreated (List.contains_iff_mem.mpr h)
    have hanswer : c.answer output =
        (if (openAndWrite c.tree (c.path output) output.encoding c.text).1 then
            output.withCreated c.name else output,
          (openAndWrite c.tree (c.path output) output.encoding c.text).2.1,
          (openAndWrite c.tree (c.path output) output.encoding c.text).2.2.mapError .text) := by
      rw [Call.answer, writeModule]
      exact if_neg hcreated
    rcases openAndWrite_cases c.tree (c.path output) output.encoding c.text with
      ⟨left, e, hopen, hwrite, hfiles⟩ | ⟨left, hopen, -, ⟨hencoding, hwrite⟩ |
      ⟨known, e, hencoding, -, hwrite⟩⟩ |
      ⟨opened, left, known, bytes, hopen, hencoding, -, hwrite, -⟩
    · rw [hwrite] at hanswer
      exact .unopened hnew hopen hanswer hfiles
    · rw [hwrite] at hanswer
      exact .unknown hnew hopen hencoding hanswer
    · rw [hwrite] at hanswer
      exact .opened hnew hopen (by rw [hencoding]; rfl) hanswer rfl
    · rw [hwrite] at hanswer
      exact .opened hnew hopen (by rw [hencoding]; rfl) hanswer rfl

/-- A call that gets a file is for a module that is new, and it is written down. -/
theorem of_opensFile {output : Output} {c : Call}
    (h : opensFile (c.answer output).2.2 = true) :
    c.name ∉ output.created ∧ (c.answer output).1 = output.withCreated c.name := by
  cases answered output c with
  | refused _ hanswer =>
    rw [hanswer] at h
    cases h
  | unopened _ _ hanswer =>
    rw [hanswer] at h
    cases h
  | unknown _ _ _ hanswer =>
    rw [hanswer] at h
    cases h
  | opened hnew _ _ hanswer => exact ⟨hnew, by rw [hanswer]⟩

/-- A call that gets no file leaves the output as it was. -/
theorem of_not_opensFile {output : Output} {c : Call}
    (h : ¬ opensFile (c.answer output).2.2 = true) : (c.answer output).1 = output := by
  cases answered output c with
  | refused _ hanswer => rw [hanswer]
  | unopened _ _ hanswer => rw [hanswer]
  | unknown _ _ _ hanswer => rw [hanswer]
  | opened _ _ _ hanswer hresult =>
    rw [hanswer] at h
    exact absurd hresult h

/-! ## Any number of calls -/

/-- The output after some calls. -/
def after (output : Output) (calls : List Call) : Output :=
  calls.foldl (fun output c => (c.answer output).1) output

/-- The calls among some that get a file. -/
def handedOut (output : Output) : List Call → List Call
  | [] => []
  | c :: rest =>
    if opensFile (c.answer output).2.2 then c :: handedOut (c.answer output).1 rest
    else handedOut (c.answer output).1 rest

theorem handedOut_sublist (output : Output) (calls : List Call) :
    (output.handedOut calls).Sublist calls := by
  induction calls generalizing output with
  | nil => exact .slnil
  | cons c rest ih =>
    rw [handedOut]
    split
    next => exact (ih _).cons_cons c
    next => exact (ih _).cons c

/-- What is written down are the names of the modules whose files have been handed out. -/
theorem after_eq (output : Output) (calls : List Call) :
    output.after calls =
      { output with created := output.created ++ (output.handedOut calls).map Call.name } := by
  induction calls generalizing output with
  | nil => rw [handedOut, List.map_nil, List.append_nil]; rfl
  | cons c rest ih =>
    rw [after, List.foldl_cons, ← after, ih, handedOut]
    split
    next h => rw [(of_opensFile h).2, withCreated, List.map_cons, List.append_assoc]; rfl
    next h => rw [of_not_opensFile h]

/-- **No name is written down twice.** -/
theorem nodup_created_after {output : Output} (h : output.created.Nodup) (calls : List Call) :
    (output.after calls).created.Nodup := by
  induction calls generalizing output with
  | nil => exact h
  | cons c rest ih =>
    rw [after, List.foldl_cons, ← after]
    refine ih ?_
    by_cases hopens : opensFile (c.answer output).2.2 = true
    · obtain ⟨hnew, hafter⟩ := of_opensFile hopens
      rw [hafter, withCreated, List.nodup_append_comm]
      exact List.nodup_cons.mpr ⟨hnew, h⟩
    · rw [of_not_opensFile hopens]
      exact h

section

variable {output : Output} {calls : List Call} (hfresh : output.created = [])
  (hnamed : ∀ c ∈ calls, c.IsNamed)

include hfresh hnamed

/-- **The file of a module is handed out once.** Among any calls on an output that has created
nothing, no two that get a file are for the same package and module, and the names written down
are those of the modules they are for. A call for a module whose file was handed out before is
refused and touches no file. Any other gets its file, if the file can be opened and the encoding is
known; if not, the output stays as it was. Different modules have different paths, at different
places in every file tree, so that no two of the files handed out are the same. -/
theorem created_once :
    output.after calls = { output with created := (output.handedOut calls).map Call.name } ∧
    ((output.handedOut calls).map Call.pair).Nodup ∧
    (∀ before c rest, calls = before ++ c :: rest →
      Answered (output.after before) c (c.pair ∈ (output.handedOut before).map Call.pair)) ∧
    (∀ c ∈ calls, ∀ d ∈ calls, c.pair ≠ d.pair → c.path output ≠ d.path output ∧
      ∀ tree : FileTree, tree.reach (c.path output) ≠ tree.reach (d.path output)) ∧
    ∀ tree : FileTree,
      ((output.handedOut calls).map fun c => tree.reach (c.path output)).Nodup := by
  have hafter (some : List Call) : (output.after some).created =
      (output.handedOut some).map Call.name := by
    rw [after_eq, hfresh, List.nil_append]
  have hpairs : ((output.handedOut calls).map Call.pair).Nodup := by
    have hnames := nodup_created_after (hfresh ▸ List.nodup_nil) calls
    have hsplit : (output.handedOut calls).map Call.name =
        ((output.handedOut calls).map Call.pair).map fun pair => qualify pair.1 pair.2 := by
      rw [List.map_map]
      rfl
    rw [hafter, hsplit] at hnames
    exact hnames.of_map
  refine ⟨?_, hpairs, ?_, ?_, fun tree => ?_⟩
  · rw [after_eq, hfresh, List.nil_append]
  · rintro before c rest rfl
    rw [List.forall_mem_append, List.forall_mem_cons] at hnamed
    refine (answered (output.after before) c).congr ?_
    rw [hafter, List.mem_map, List.mem_map]
    refine exists_congr fun d => and_congr_right fun hd => ?_
    exact Call.name_eq_iff (hnamed.1 d ((handedOut_sublist output before).subset hd)) hnamed.2.1
  · intro c hc d hd hne
    have hplaces := Call.reach_path_ne (hnamed c hc) (hnamed d hd) hne output
    exact ⟨fun heq => hplaces (.empty []) (congrArg _ heq), hplaces⟩
  · rw [List.nodup_iff_pairwise_ne, List.pairwise_map] at hpairs ⊢
    refine hpairs.imp_of_mem fun hc hd hne => ?_
    have hmem := (handedOut_sublist output calls).subset
    exact Call.reach_path_ne (hnamed _ (hmem hc)) (hnamed _ (hmem hd)) hne output tree

end

/-! ### A module that is asked for three times -/

/-- An output that has created nothing. -/
def freshOutput : Output := ⟨⟨.none, ["out"]⟩, ⟨.none, ["gen"]⟩, "META-INF/services", "utf-8", []⟩

/-- A call for one module. -/
def repeatedCall (tree : FileTree) : Call := ⟨"p", "x", "1".toList, tree⟩

/-- Two calls: the first when a file is in the way of the package, the second when it has gone. -/
def earlierCalls : List Call :=
  [repeatedCall ((FileTree.empty ["home"]).place ["home", "gen"] (.file [])),
    repeatedCall (.empty ["home"])]

/-- The first call fails and the second gets the file, so that the third is refused. -/
theorem third_call_is_refused :
    (freshOutput.after (earlierCalls ++ [repeatedCall (.empty ["home"])])).created = ["p.x"] ∧
      (repeatedCall (.empty ["home"])).answer (freshOutput.after earlierCalls) =
        (freshOutput.after earlierCalls, .empty ["home"], .error (.recreated "p.x")) := by
  have hnamed : ∀ c ∈ earlierCalls ++ [repeatedCall (.empty ["home"])], c.IsNamed := by
    decide +kernel
  have hfresh : freshOutput.created = [] := rfl
  obtain ⟨hafter, -, hanswered, -⟩ := created_once hfresh hnamed
  have hnames : (freshOutput.handedOut
      (earlierCalls ++ [repeatedCall (.empty ["home"])])).map Call.name = ["p.x"] := by
    decide +kernel
  have hpair : (repeatedCall (.empty ["home"])).pair ∈
      (freshOutput.handedOut earlierCalls).map Call.pair := by decide +kernel
  refine ⟨by rw [hafter, hnames], ?_⟩
  cases hanswered earlierCalls (repeatedCall (.empty ["home"])) [] rfl with
  | refused _ hanswer => exact hanswer
  | unopened hnew => exact absurd hpair hnew
  | unknown hnew => exact absurd hpair hnew
  | opened hnew => exact absurd hpair hnew

end ProviderRegistry.Registry.Output
