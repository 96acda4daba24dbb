import ProviderRegistry.Proofs.Readers
import ProviderRegistry.Proofs.Rounds

/-!
# Writing registry files and reading them back

A registry file is written in one form, every name followed by a newline, and read in many:
with any of three line ends, and with or without one after the last line. Both ways round
nothing is lost (`linesIn_render`): names without line ends are read back as they were written,
and the lines of any file, written and read again, are the same lines. So one rewriting settles
the bytes of a file, and further ones leave them alone.

Lines are taken as they are. An empty one is a line, and so is one with characters that end
lines elsewhere, such as U+2028.
-/

namespace ProviderRegistry

open Registry

/-- The lines of a file with these bytes, as a stream in UTF-8 has them. -/
def linesIn (bytes : List UInt8) : Except Text.DecodeError (List String) :=
  (Text.decodeStream .utf8 bytes).map fun text => readLines (Text.normalizeNewlines text)

variable {bytes : List UInt8} {text : List Char} {lines : List String}

theorem linesIn_of_decode (h : Text.decode .utf8 bytes = .ok text) :
    linesIn bytes = .ok (readLines (Text.normalizeNewlines text)) := by
  rw [linesIn, Text.decodeStream_of_decode h]
  rfl

/-- Lines that have been written are read back. -/
theorem linesIn_contentOf (h : ∀ line ∈ lines, IsLine line) :
    linesIn (contentOf lines) = .ok lines := by
  rw [contentOf, linesIn_of_decode (Text.decode_utf8Bytes _), readLines_unlines h]

/-! ## Through an output -/

namespace Registry.Output

variable {output : Output} {tree after : FileTree} {name : String}

/-- The lines that an output finds in a resource are those of its bytes. -/
theorem map_readLines_readResource
    (hencoding : Text.Encoding.ofName? output.encoding = some .utf8)
    (hread : tree.read (output.resourcePath name) = .ok bytes) :
    (output.readResource tree name).map readLines = (linesIn bytes).mapError .decode := by
  rw [readResource, FileTree.readTextStream, FileTree.readTextWith, hread, linesIn]
  simp only [hencoding]
  cases Text.decodeStream .utf8 bytes <;> rfl

/-- A resource that has been written holds the bytes of its text. -/
theorem read_of_writeResource
    (hencoding : Text.Encoding.ofName? output.encoding = some .utf8)
    (h : output.writeResource tree name text = (after, .ok ())) :
    after.read (output.resourcePath name) = .ok (Text.utf8Bytes text) := by
  rw [writeResource] at h
  rcases openAndWrite_cases tree (output.resourcePath name) output.encoding text with
    ⟨_, _, -, hwrite, -⟩ | ⟨_, -, -, ⟨-, hwrite⟩ | ⟨_, _, -, -, hwrite⟩⟩ |
    ⟨_, written, known, content, -, hknown, hencode, hwrite, hwrote⟩
  -- Only the last of the cases has no error.
  · rw [hwrite] at h
    cases h
  · rw [hwrite] at h
    cases h
  · rw [hwrite] at h
    cases h
  · rw [hwrite] at h
    obtain rfl : written = after := (Prod.mk.inj h).1
    obtain rfl : .utf8 = known := Option.some.inj (hencoding.symm.trans hknown)
    obtain rfl : Text.utf8Bytes text = content := Except.ok.inj hencode
    exact hwrote.read

end Registry.Output

/-! ## Both ways round -/

/-- **Nothing is lost** between names and the files that list them. Names without line ends are
read back from the bytes of their entry. The lines of any file in UTF-8, written for some
contract, are read back too, and what is read back is written with the same bytes. These are
the bytes that an output writes, and the lines that it reads. -/
theorem linesIn_render :
    (∀ entry : Entry, (∀ name ∈ entry.implementations, IsLine name) →
      linesIn (Text.utf8Bytes entry.render) = .ok entry.implementations) ∧
    (∀ (bytes : List UInt8) (text : List Char), Text.decode .utf8 bytes = .ok text →
      ∃ lines, linesIn bytes = .ok lines ∧ ∀ contractName,
        linesIn (Text.utf8Bytes (Entry.render ⟨contractName, lines⟩)) = .ok lines ∧
        ∀ again, linesIn (Text.utf8Bytes (Entry.render ⟨contractName, lines⟩)) = .ok again →
          Text.utf8Bytes (Entry.render ⟨contractName, again⟩) =
            Text.utf8Bytes (Entry.render ⟨contractName, lines⟩)) ∧
    ∀ (output : Output) (tree : FileTree) (name : String),
      Text.Encoding.ofName? output.encoding = some .utf8 →
      (∀ bytes, tree.read (output.resourcePath name) = .ok bytes →
        (output.readResource tree name).map readLines = (linesIn bytes).mapError .decode) ∧
      ∀ text after, output.writeResource tree name text = (after, .ok ()) →
        after.read (output.resourcePath name) = .ok (Text.utf8Bytes text) := by
  refine ⟨fun entry h => linesIn_contentOf h, fun bytes text hdecode => ?_,
    fun output tree name hencoding => ⟨fun bytes => Output.map_readLines_readResource hencoding,
      fun text after => Output.read_of_writeResource hencoding⟩⟩
  refine ⟨_, linesIn_of_decode hdecode, fun contractName => ?_⟩
  have hback : linesIn (Text.utf8Bytes (Entry.render
      ⟨contractName, readLines (Text.normalizeNewlines text)⟩)) = .ok _ :=
    linesIn_contentOf (isLine_readLines text)
  refine ⟨hback, fun again hagain => ?_⟩
  obtain rfl := Except.ok.inj (hback.symm.trans hagain)
  rfl

/-- A file with three line ends, empty lines, U+2028 and no line end at the end. -/
theorem linesIn_render_mixed :
    ∃ lines, linesIn (Text.utf8Bytes "a.A\r\n\r b\u2028c\n\nd".toList) = .ok lines ∧
      linesIn (Text.utf8Bytes (Entry.render ⟨"m.C", lines⟩)) = .ok lines ∧
      lines = ["a.A", "", " b\u2028c", "", "d"] := by
  obtain ⟨lines, hlines, h⟩ := linesIn_render.2.1
    (Text.utf8Bytes "a.A\r\n\r b\u2028c\n\nd".toList) _ (Text.decode_utf8Bytes _)
  refine ⟨lines, hlines, (h "m.C").1, ?_⟩
  have hread := linesIn_of_decode (Text.decode_utf8Bytes "a.A\r\n\r b\u2028c\n\nd".toList)
  rw [hlines] at hread
  exact Except.ok.inj hread

end ProviderRegistry
