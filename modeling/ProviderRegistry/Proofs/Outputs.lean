import ProviderRegistry.Proofs.Files
import ProviderRegistry.Proofs.Lines
import ProviderRegistry.Proofs.Utf8
import ProviderRegistry.Registry.Output

/-!
# Writing through an output

What opening a file and writing a text to it can come to (`openAndWrite_cases`), and
where registry files stand: the files of different contracts stand side by side in one
directory (`resourcePath_registryFile`).
-/

namespace ProviderRegistry

/-! ## Pieces of a text -/

namespace Text

variable {separator : Char → Bool}

theorem pieces_ne_nil (text : List Char) : pieces separator text ≠ [] := by
  cases text with
  | nil => simp [pieces]
  | cons c rest =>
    rw [pieces]
    split
    next => simp
    next => exact consFirst_ne_nil c _

theorem consFirst_append {lines : List (List Char)} (h : lines ≠ []) (c : Char)
    (more : List (List Char)) : consFirst c (lines ++ more) = consFirst c lines ++ more := by
  cases lines with
  | nil => exact absurd rfl h
  | cons line lines => rfl

theorem pieces_append {c : Char} (hc : separator c = true) (before after : List Char) :
    pieces separator (before ++ c :: after) =
      pieces separator before ++ pieces separator after := by
  induction before with
  | nil => simp [pieces, hc]
  | cons d before ih =>
    rw [List.cons_append, pieces, pieces, ih]
    split
    next => rfl
    next => exact consFirst_append (pieces_ne_nil before) d _

theorem pieces_eq_singleton {text : List Char} (h : ∀ c ∈ text, separator c = false) :
    pieces separator text = [text] := by
  induction text with
  | nil => rfl
  | cons c rest ih =>
    rw [List.forall_mem_cons] at h
    rw [pieces, if_neg (by simp [h.1]), ih h.2]
    rfl

end Text

/-! ## Names of files -/

/-- A name that names one file in a directory. -/
structure IsFileName (name : String) : Prop where
  noSlash : '/' ∉ name.toList
  ne_empty : name ≠ ""
  ne_dot : name ≠ "."
  ne_dots : name ≠ ".."

instance (name : String) : Decidable (IsFileName name) :=
  decidable_of_iff ('/' ∉ name.toList ∧ name ≠ "" ∧ name ≠ "." ∧ name ≠ "..")
    ⟨fun ⟨h1, h2, h3, h4⟩ => ⟨h1, h2, h3, h4⟩, fun ⟨h1, h2, h3, h4⟩ => ⟨h1, h2, h3, h4⟩⟩

namespace Path

theorem componentsOf_append {name : String} (h : IsFileName name) (directory : List Char) :
    componentsOf (directory ++ '/' :: name.toList) = componentsOf directory ++ [name] := by
  have hpieces : Text.pieces (· == '/') name.toList = [name.toList] := by
    refine Text.pieces_eq_singleton fun c hc => ?_
    rw [beq_eq_false_iff_ne]
    rintro rfl
    exact h.noSlash hc
  have hempty : name.toList ≠ [] := fun he => h.ne_empty (String.toList_eq_nil_iff.mp he)
  have hdot : name.toList ≠ ['.'] := fun hd => h.ne_dot (String.toList_inj.mp hd)
  rw [componentsOf, Text.pieces_append (by simp), hpieces]
  simp [componentsOf, hempty, hdot]

/-- The root of a text with a file's name at its end is that of the text before. -/
theorem rootOf_append {name name' : String} (h : IsFileName name) (h' : IsFileName name')
    (directory : List Char) :
    rootOf (directory ++ '/' :: name.toList) = rootOf (directory ++ '/' :: name'.toList) := by
  have hroot {n : String} (hn : IsFileName n) : ∃ c rest, n.toList = c :: rest ∧ c ≠ '/' := by
    cases hl : n.toList with
    | nil => exact absurd (String.toList_eq_nil_iff.mp hl) hn.ne_empty
    | cons c rest =>
      refine ⟨c, rest, rfl, ?_⟩
      rintro rfl
      exact hn.noSlash (hl ▸ List.mem_cons_self)
  obtain ⟨c, rest, hc, hne⟩ := hroot h
  obtain ⟨c', rest', hc', hne'⟩ := hroot h'
  rw [hc, hc']
  -- A root is settled by the first three characters, and the name has no slash in front.
  match directory with
  | [] => simp [rootOf, hne, hne']
  | [a] => by_cases ha : a = '/' <;> simp [rootOf, ha, hne, hne']
  | [a, b] =>
    by_cases ha : a = '/' <;> by_cases hb : b = '/' <;> simp [rootOf, ha, hb]
  | a :: b :: d :: directory =>
    by_cases ha : a = '/' <;> by_cases hb : b = '/' <;> by_cases hd : d = '/' <;>
      simp [rootOf, ha, hb, hd]

theorem append_concat (base : Path) (root : Root) (parts : List String) (name : String) :
    base ++ (⟨root, parts ++ [name]⟩ : Path) =
      ⟨(base ++ (⟨root, parts⟩ : Path)).root, (base ++ (⟨root, parts⟩ : Path)).parts ++ [name]⟩ := by
  cases root with
  | none =>
    change (⟨base.root, base.parts ++ (parts ++ [name])⟩ : Path) =
      ⟨base.root, base.parts ++ parts ++ [name]⟩
    rw [List.append_assoc]
  | single => rfl
  | double => rfl

end Path

namespace Registry.Output

theorem ofString_registryFile {name : String} (h : IsFileName name) (servicesDir : String) :
    Path.ofString (Naming.registryFile name servicesDir) =
      ⟨Path.rootOf ((Naming.withoutTrailingSlashes servicesDir).toList ++ '/' :: "_".toList),
        Path.componentsOf (Naming.withoutTrailingSlashes servicesDir).toList ++ [name]⟩ := by
  have hany : IsFileName "_" := ⟨by decide, by decide, by decide, by decide⟩
  have htext : (Naming.registryFile name servicesDir).toList =
      (Naming.withoutTrailingSlashes servicesDir).toList ++ '/' :: name.toList := by
    simp [Naming.registryFile, String.toList_append]
  rw [Path.ofString, htext, Path.componentsOf_append h, Path.rootOf_append h hany]

/-- The directory that the registry files of an output stand in. -/
def registryDirectory (output : Output) : Path :=
  output.classOutput ++
    (⟨Path.rootOf ((Naming.withoutTrailingSlashes output.servicesDir).toList ++ '/' :: "_".toList),
      Path.componentsOf (Naming.withoutTrailingSlashes output.servicesDir).toList⟩ : Path)

/-- The path of a contract's registry file. -/
abbrev registryPath (output : Output) (contractName : String) : Path :=
  output.resourcePath (output.registryFile contractName)

/-- Registry files stand side by side, each under the name of its contract. -/
theorem resourcePath_registryFile {name : String} (h : IsFileName name) (output : Output) :
    output.registryPath name =
      ⟨output.registryDirectory.root, output.registryDirectory.parts ++ [name]⟩ := by
  rw [registryPath, resourcePath, Path.child, registryFile, ofString_registryFile h,
    Path.append_concat, registryDirectory]

/-- The location of a contract's registry file. -/
theorem reach_registryFile {name : String} (h : IsFileName name) (output : Output)
    (tree : FileTree) :
    tree.reach (output.registryPath name) =
      tree.reach output.registryDirectory ++ [name] := by
  rw [resourcePath_registryFile h, FileTree.reach, FileTree.reach, List.foldl_concat,
    FileTree.enter, if_neg h.ne_dots, FileTree.start, FileTree.start, Path.isAbsolute,
    Path.isAbsolute]

/-- The registry files of different contracts stand at different locations. -/
theorem reach_registryFile_inj {name name' : String} (h : IsFileName name) (h' : IsFileName name')
    {output : Output} {tree : FileTree}
    (heq : tree.reach (output.registryPath name) =
      tree.reach (output.registryPath name')) : name = name' := by
  rw [reach_registryFile h, reach_registryFile h'] at heq
  exact List.singleton_inj.mp (List.append_cancel_left heq)

/-! ## Opening and writing -/

/-- What opening a file and writing a text to it can come to: the file cannot be opened,
and no file changes; it is opened and left empty; or it holds the text. -/
theorem openAndWrite_cases (tree : FileTree) (path : Path) (encoding : String)
    (text : List Char) :
    (∃ after e, tree.openForWriting path = (after, .error e) ∧
      openAndWrite tree path encoding text = (false, after, .error (.file e)) ∧
      tree.Extends after) ∨
    (∃ after, tree.openForWriting path = (after, .ok ()) ∧ tree.Wrote path [] after ∧
      ((Text.Encoding.ofName? encoding = none ∧ openAndWrite tree path encoding text =
          (false, after, .error (.unknownEncoding encoding))) ∨
        ∃ known e, Text.Encoding.ofName? encoding = some known ∧
          Text.encode known text = .error e ∧
          openAndWrite tree path encoding text = (true, after, .error (.encode e)))) ∨
    (∃ opened after known bytes, tree.openForWriting path = (opened, .ok ()) ∧
      Text.Encoding.ofName? encoding = some known ∧ Text.encode known text = .ok bytes ∧
      openAndWrite tree path encoding text = (true, after, .ok ()) ∧
      tree.Wrote path bytes after) := by
  -- The file is opened first, and only then is an encoding looked for and the text encoded.
  cases hopen : tree.openForWriting path with
  | mk opened result =>
    cases result with
    | error e =>
      refine .inl ⟨opened, e, rfl, ?_, FileTree.extends_of_openForWriting_error hopen⟩
      rw [openAndWrite, hopen]
    | ok _ =>
      have hwrote := FileTree.wrote_of_openForWriting_ok hopen
      cases hname : Text.Encoding.ofName? encoding with
      | none =>
        refine .inr (.inl ⟨opened, rfl, hwrote, .inl ⟨rfl, ?_⟩⟩)
        rw [openAndWrite, hopen]
        simp only [hname]
      | some known =>
        cases hencode : Text.encode known text with
        | error e =>
          refine .inr (.inl ⟨opened, rfl, hwrote, .inr ⟨known, e, rfl, hencode, ?_⟩⟩)
          rw [openAndWrite, hopen]
          simp only [hname, hencode]
        | ok bytes =>
          obtain ⟨after, hwrite, hafter⟩ := hwrote.write bytes
          refine .inr (.inr ⟨opened, after, known, bytes, rfl, rfl, hencode, ?_, hafter⟩)
          rw [openAndWrite, hopen]
          simp only [hname, hencode, hwrite]

/-! ## Modules -/

/-- What writing a module can come to: it has been created before; it cannot be opened;
it is opened but its text not written; or it holds its text. -/
theorem writeModule_cases (output : Output) (tree : FileTree) (package module : String)
    (text : List Char) :
    (output.writeModule tree package module text =
      (output, tree, .error (.recreated (qualify package module)))) ∨
    (∃ after e, output.writeModule tree package module text =
      (output, after, .error (.text (.file e))) ∧ tree.Extends after) ∨
    (∃ created after e, output.writeModule tree package module text =
      ({ output with created }, after, .error (.text e)) ∧ e.isSystem = false) ∨
    (∃ created after bytes, output.writeModule tree package module text =
      ({ output with created }, after, .ok ()) ∧
      tree.Wrote (output.modulePath package module) bytes after) := by
  -- A module that was created before is refused without a look at its file.
  by_cases hcreated : output.created.contains (qualify package module) = true
  · refine .inl ?_
    simp only [writeModule, if_pos hcreated]
  · refine .inr ?_
    rcases openAndWrite_cases tree (output.modulePath package module) output.encoding text with
      ⟨after, e, -, hwrite, hext⟩ | ⟨after, -, -, ⟨-, hwrite⟩ | ⟨known, e, -, -, hwrite⟩⟩ |
      ⟨opened, after, known, bytes, -, -, -, hwrite, hwrote⟩
    · refine .inl ⟨after, e, ?_, hext⟩
      simp only [writeModule, if_neg hcreated, hwrite]
      rfl
    · refine .inr (.inl ⟨output.created, after, .unknownEncoding output.encoding, ?_, rfl⟩)
      simp only [writeModule, if_neg hcreated, hwrite]
      rfl
    · refine .inr (.inl ⟨output.created ++ [qualify package module], after, .encode e, ?_, rfl⟩)
      simp only [writeModule, if_neg hcreated, hwrite]
      rfl
    · refine .inr (.inr ⟨output.created ++ [qualify package module], after, bytes, ?_, hwrote⟩)
      simp only [writeModule, if_neg hcreated, hwrite]
      rfl

end Registry.Output

end ProviderRegistry
