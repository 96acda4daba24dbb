import ProviderRegistry.Proofs.Effects
import ProviderRegistry.Proofs.Reports

/-!
# Registry files that cannot be read

A round that cannot read a registry file reports it and goes on without its lines. What
becomes of the file then depends on why it could not be read (`undecodable_replaced`). What
the system refuses to read it refuses to write, so that nothing is lost. A file whose bytes
are no text is opened like any other, and holds only what the round has accepted afterwards.
-/

namespace ProviderRegistry

open Symbols Registry Factory

/-! ## What stays in the way -/

namespace FileTree

/-- Directories are directories still, and files are files still, whatever they hold. -/
structure Persists (before after : FileTree) : Prop extends Keeps before after where
  file : ∀ l, (before.file? l).isSome = true → (after.file? l).isSome = true

variable {before middle after : FileTree} {p : Path} {content : List UInt8}

theorem Persists.refl (tree : FileTree) : Persists tree tree := ⟨.refl tree, fun _ h => h⟩

theorem Persists.trans (h : Persists before middle) (h' : Persists middle after) :
    Persists before after :=
  ⟨h.toKeeps.trans h'.toKeeps, fun l hl => h'.file l (h.file l hl)⟩

theorem Extends.persists (h : Extends before after) : Persists before after := by
  refine ⟨h.toKeeps, fun l hl => ?_⟩
  rw [h.file]
  exact hl

theorem Wrote.persists (h : Wrote before p content after) : Persists before after := by
  refine ⟨h.toKeeps, fun l hl => ?_⟩
  by_cases hself : l = before.reach p
  · rw [hself, h.self]
    rfl
  · rw [h.other l hself]
    exact hl

namespace Persists

/-- A file that could be read can be read later. -/
theorem exists_read (h : Persists before after) (hread : before.read p = .ok content) :
    ∃ held, after.read p = .ok held := by
  have hfile := (read_eq_ok.mp hread).2
  obtain ⟨held, hheld⟩ := Option.isSome_iff_exists.mp
    (h.file (before.reach p) (Option.isSome_of_eq_some hfile))
  exact ⟨held, h.toKeeps.read hread hheld⟩

/-- No directory comes to stand where a file stands. -/
theorem node?_ne_directory (h : Persists before after) {l : Location}
    (hnode : before.node? l = some (.file content)) : after.node? l ≠ some .directory := by
  intro hdirectory
  have hlater := h.file l (by rw [file?, hnode]; rfl)
  rw [file?, hdirectory] at hlater
  cases hlater

theorem follow_ne_ok (h : Persists before after) {cause : FileError.Cause}
    (hcause : cause ≠ .notFound) {here : Location} {parts : List String}
    (hfollow : before.follow here parts = .error cause) (l : Location) :
    after.follow here parts ≠ .ok l := by
  intro hok
  -- By induction on the components: the first that is a file or has too long a name is so
  -- still.
  induction parts generalizing here with
  | nil => cases hfollow
  | cons part rest ih =>
    obtain ⟨hfits, hdirectory, hlater⟩ := follow_cons_eq_ok_iff.mp hok
    rcases of_follow_cons_eq_error hfollow with
      ⟨hlong, -⟩ | ⟨-, rfl⟩ | ⟨hne, ⟨content, hfile⟩, -⟩ | hrest
    · exact Nat.not_lt.mpr hfits hlong
    · exact hcause rfl
    · exact h.node?_ne_directory hfile (hdirectory hne)
    · exact ih hrest hlater

/-- What cannot be read, and not because nothing is there, can never be read. -/
theorem read_ne_ok (h : Persists before after) {e : FileError} (hcause : e.cause ≠ .notFound)
    (hread : before.read p = .error e) : after.read p ≠ .ok content := by
  intro hlater
  obtain ⟨hlocate, hfile⟩ := read_eq_ok.mp hlater
  rw [read, find?] at hread
  cases hl : before.locate p with
  | error cause =>
    rw [hl] at hread
    obtain rfl := Except.error.inj hread
    obtain ⟨hnull, hfollow⟩ := locate_eq_ok_iff.mp hlocate
    rw [locate_of_noNull hnull] at hl
    rw [h.start] at hfollow
    exact h.follow_ne_ok hcause hl _ hfollow
  | ok l =>
    obtain rfl := eq_reach_of_locate hl
    rw [hl] at hread
    cases hnode : before.node? (before.reach p) with
    | none =>
      simp only [hnode] at hread
      obtain rfl := Except.error.inj hread
      exact hcause rfl
    | some node =>
      simp only [hnode] at hread
      cases node with
      | directory =>
        rw [h.reach, file?, h.directory _ hnode] at hfile
        cases hfile
      | file held => cases hread

end Persists

end FileTree

/-! ## Texts that have been encoded -/

namespace Text

variable {text : List Char} {bytes : List UInt8}

theorem lt_of_mem_encodeBelow {encoding : Encoding} {position : Nat}
    (h : encodeBelow encoding 128 position text = .ok bytes) : ∀ b ∈ bytes, b < 128 := by
  induction text generalizing position bytes with
  | nil =>
    cases h
    exact List.forall_mem_nil _
  | cons c rest ih =>
    rw [encodeBelow] at h
    split at h
    next hc =>
      cases hrest : encodeBelow encoding 128 (position + 1) rest with
      | error e =>
        rw [hrest] at h
        cases h
      | ok more =>
        rw [hrest] at h
        obtain rfl := Except.ok.inj h
        rw [List.forall_mem_cons]
        refine ⟨?_, ih hrest⟩
        rw [UInt8.lt_iff_toNat_lt]
        have hbyte : c.toNat.toUInt8.toNat = c.toNat := by
          rw [Nat.toUInt8_eq, UInt8.toNat_ofNat']
          omega
        rw [hbyte]
        exact hc
    next => cases h

theorem exists_decodeAscii (h : ∀ b ∈ bytes, b < 128) (position : Nat) :
    ∃ text, decodeAscii position bytes = .ok text := by
  induction bytes generalizing position with
  | nil => exact ⟨[], rfl⟩
  | cons b rest ih =>
    rw [List.forall_mem_cons] at h
    obtain ⟨chars, hchars⟩ := ih h.2 (position + 1)
    refine ⟨Char.ofNat b.toNat :: chars, ?_⟩
    rw [decodeAscii, if_pos h.1, hchars]

theorem exists_decodeBlocks_ascii (h : ∀ b ∈ bytes, b < 128) (blocks : Nat) :
    ∃ text, decodeBlocks .ascii blocks [] bytes = .ok text := by
  induction blocks generalizing bytes with
  | zero => exact ⟨[], rfl⟩
  | succ blocks ih =>
    rw [decodeBlocks]
    by_cases hempty : bytes.isEmpty = true
    · exact ⟨[], by rw [if_pos hempty]⟩
    · have hblock : ∀ b ∈ [] ++ bytes.take blockSize, b < 128 :=
        fun b hb => h b (List.mem_of_mem_take hb)
      obtain ⟨chars, hchars⟩ := exists_decodeAscii hblock 0
      have hrest : ∀ b ∈ bytes.drop blockSize, b < 128 :=
        fun b hb => h b (List.mem_of_mem_drop hb)
      obtain ⟨more, hmore⟩ := ih hrest
      refine ⟨chars ++ more, ?_⟩
      rw [if_neg hempty, hchars]
      simp only [bind, Except.bind, hmore, pure, Except.pure]

/-- What an encoding has written it can read. -/
theorem exists_decodeStream {encoding : Encoding} (h : encode encoding text = .ok bytes) :
    ∃ decoded, decodeStream encoding bytes = .ok decoded := by
  cases encoding with
  | utf8 =>
    obtain rfl := Except.ok.inj h
    exact ⟨text, decodeStream_of_decode (decode_utf8Bytes text)⟩
  | ascii => exact exists_decodeBlocks_ascii (lt_of_mem_encodeBelow h) _
  | latin1 => exact ⟨_, rfl⟩

end Text

/-! ## Files while they are written -/

namespace Registry

variable {output : Output} {tree after : FileTree} {entries : List Entry}
  {reports reports' : Reports} {paths : List Path}

theorem Turn.persists_written (output : Output) (t : Turn) :
    t.tree.Persists (t.written output).1 := by
  rcases t.written_cases output with ⟨next, e, -, hwritten, hext⟩ |
    ⟨next, bytes, -, -, hwritten, hwrote⟩ | ⟨next, e, -, -, hwritten, -, hwrote⟩
  · rw [hwritten]
    exact hext.persists
  · rw [hwritten]
    exact hwrote.persists
  · rw [hwritten]
    exact hwrote.persists

/-- What was there before the turns is there in each of them. -/
theorem persists_of_mem_turns {t : Turn} (h : t ∈ turns output entries tree) :
    tree.Persists t.tree :=
  turns_induction (fun t ht => ht.trans (t.persists_written output)) (.refl tree) h

/-- A turn opens a file that could be read before all turns. -/
theorem refusal?_of_read {t : Turn} {content : List UInt8} (h : t ∈ turns output entries tree)
    (hread : tree.read (t.path output) = .ok content) : t.refusal? output = none := by
  obtain ⟨held, hheld⟩ := (persists_of_mem_turns h).exists_read hread
  obtain ⟨opened, hopen⟩ := FileTree.exists_openForWriting hheld
  rw [Turn.refusal?, hopen]

/-- No turn opens a file that the system would not read before. -/
theorem notMem_openedTurns {t : Turn} {e : FileError} (hcause : e.cause ≠ .notFound)
    (hread : tree.read (t.path output) = .error e) : t ∉ openedTurns output entries tree := by
  intro ht
  obtain ⟨hmem, hopened⟩ := List.mem_filter.mp ht
  rw [Turn.refusal?] at hopened
  rcases hopen : t.tree.openForWriting (t.path output) with ⟨opened, result⟩
  rw [hopen] at hopened
  cases result with
  | error e => cases hopened
  | ok u =>
    have hwrote := FileTree.wrote_of_openForWriting_ok hopen
    exact ((persists_of_mem_turns hmem).trans hwrote.persists).read_ne_ok hcause hread hwrote.read

theorem unreadable?_cases {contractName : String} {e : TextFileError}
    (h : unreadable? output tree contractName = some e) (he : e.isUnreadable = true) :
    (∃ refused : FileError, e = .file refused ∧ refused.cause ≠ .notFound ∧
      tree.read (output.registryPath contractName) = .error refused) ∨
    (∃ bytes encoding fault, tree.read (output.registryPath contractName) = .ok bytes ∧
      Text.Encoding.ofName? output.encoding = some encoding ∧
      Text.decodeStream encoding bytes = .error fault ∧ e = .decode fault) := by
  rw [unreadable?, Output.readResource, FileTree.readTextStream, FileTree.readTextWith] at h
  cases hread : tree.read (output.registryPath contractName) with
  | error refused =>
    simp only [hread] at h
    obtain ⟨cause, p⟩ := refused
    cases cause with
    | notFound => cases h
    | _ => exact .inl ⟨_, (Option.some.inj h).symm, by simp, rfl⟩
  | ok bytes =>
    simp only [hread] at h
    cases hencoding : Text.Encoding.ofName? output.encoding with
    | none =>
      simp only [hencoding] at h
      obtain rfl := Option.some.inj h
      cases he
    | some encoding =>
      simp only [hencoding] at h
      cases hdecode : Text.decodeStream encoding bytes with
      | ok text =>
        simp only [hdecode] at h
        cases h
      | error fault =>
        simp only [hdecode] at h
        exact .inr ⟨bytes, encoding, fault, rfl, rfl, hdecode, (Option.some.inj h).symm⟩

/-- A file that is no text differs from all that are written. -/
theorem bytes_ne_of_undecodable {entry : Entry} {encoding : Text.Encoding}
    {held bytes : List UInt8} {fault : Text.DecodeError}
    (hencoding : Text.Encoding.ofName? output.encoding = some encoding)
    (hfault : Text.decodeStream encoding held = .error fault)
    (hbytes : output.bytes? entry = some bytes) : bytes ≠ held := by
  rintro rfl
  rw [Output.bytes?, hencoding] at hbytes
  cases hencode : Text.encode encoding entry.render with
  | error e =>
    simp only [hencode] at hbytes
    cases hbytes
  | ok encoded =>
    simp only [hencode] at hbytes
    obtain rfl := Option.some.inj hbytes
    obtain ⟨decoded, hdecoded⟩ := Text.exists_decodeStream hencode
    rw [hfault] at hdecoded
    cases hdecoded

end Registry

/-! ## Whole rounds -/

namespace FinishedRound

variable {r : FinishedRound} {contractName : String}
  (hkey : contractName ∈ r.bindings.map (·.key))

include hkey

/-- The entry of a contract that a round accepts a provider for has its turn. -/
theorem exists_turn : ∃ t ∈ turns r.output r.outcome.entries r.start.world.files,
    t.entry = mergedEntry r.output r.start.world.files r.bindings contractName := by
  obtain ⟨hfiles, hfinished⟩ := r.finished
  obtain ⟨first, hfirst, rfl⟩ := List.mem_map.mp (mem_firsts_key.mpr hkey)
  have hentry : mergedEntry r.output r.start.world.files r.bindings first.key ∈
      r.outcome.entries := by
    rw [hfinished.entries, ← hfiles]
    exact List.mem_map_of_mem hfirst
  have hturn : mergedEntry r.output r.start.world.files r.bindings first.key ∈
      (turns r.output r.outcome.entries r.start.world.files).map (·.entry) := by
    rw [turns_map_entry, List.mem_filter]
    exact ⟨hentry, by simpa using implementations_ne_nil _ hentry⟩
  obtain ⟨t, ht, heq⟩ := List.mem_map.mp hturn
  exact ⟨t, ht, heq⟩

/-- A registry file that is there is written, whether or not its bytes are a text. -/
theorem mem_registryFiles_of_read {content : List UInt8}
    (hread : r.start.world.files.read (r.output.registryPath contractName) = .ok content) :
    r.output.registryPath contractName ∈ r.outcome.registryFiles ∧
      ∃ bytes, r.output.bytes?
        (mergedEntry r.output r.start.world.files r.bindings contractName) = some bytes := by
  obtain ⟨hfiles, hfinished⟩ := r.finished
  obtain ⟨t, ht, hentry⟩ := exists_turn hkey
  have hpath : t.path r.output = r.output.registryPath contractName := by
    rw [Turn.path, hentry]
    rfl
  have hrefusal := refusal?_of_read ht (hpath ▸ hread)
  constructor
  · rw [hfinished.registryFiles, hfiles, ← hpath]
    refine List.mem_map_of_mem (List.mem_filter.mpr ⟨ht, ?_⟩)
    rw [hrefusal]
    rfl
  · have hcompletes := hfinished.completes t (hfiles ▸ ht)
    rw [Turn.completes, hrefusal, hentry] at hcompletes
    exact Option.isSome_iff_exists.mp hcompletes

/-- What a round could not read it has reported. -/
theorem mem_reports_of_unreadable {e : TextFileError}
    (h : unreadable? r.output r.start.world.files contractName = some e) :
    { message := "Could not read " ++ (r.output.registryPath contractName).text ++ ": " ++
        e.message : Diagnostic } ∈ r.finish.reports.diagnostics := by
  obtain ⟨hfiles, hfinished⟩ := r.finished
  obtain ⟨first, hfirst, rfl⟩ := List.mem_map.mp (mem_firsts_key.mpr hkey)
  have hunread : { message := "Could not read " ++ (r.output.registryPath first.key).text ++
      ": " ++ e.message : Diagnostic } ∈ unreadReports r.output r.asked r.bindings := by
    refine List.mem_filterMap.mpr ⟨first, hfirst, ?_⟩
    rw [unreadReport?, hfiles, h]
    rfl
  rw [hfinished.reports]
  simp only [List.mem_append]
  exact .inr (.inl (.inl hunread))

omit hkey

variable (hkeys : ∀ b ∈ r.bindings, IsFileName b.key)

include hkeys

/-- A file that the system would not read is not written. -/
theorem notMem_registryFiles {e : FileError} (hname : IsFileName contractName)
    (hcause : e.cause ≠ .notFound)
    (hread : r.start.world.files.read (r.output.registryPath contractName) = .error e) :
    ∀ q ∈ r.outcome.registryFiles, r.start.world.files.reach q ≠
      r.start.world.files.reach (r.output.registryPath contractName) := by
  obtain ⟨hfiles, hfinished⟩ := r.finished
  intro q hq heq
  rw [hfinished.registryFiles, hfiles] at hq
  obtain ⟨t, ht, rfl⟩ := List.mem_map.mp hq
  -- Only the turn of the contract comes to this place.
  have hsame : t.path r.output = r.output.registryPath contractName := by
    have hmem := List.mem_map_of_mem (f := (·.entry)) (List.mem_filter.mp ht).1
    rw [turns_map_entry] at hmem
    obtain ⟨b, hb, hbkey⟩ := List.mem_map.mp (of_mem_entries (List.mem_filter.mp hmem).1).1
    have hentry : IsFileName t.entry.contractName := hbkey ▸ hkeys b hb
    rw [Turn.path, Output.reach_registryFile_inj hentry hname heq]
  exact notMem_openedTurns hcause (hsame ▸ hread) ht

variable (hapart : ∀ q ∈ r.outcome.generatedSources, r.start.world.files.reach q ≠
  r.start.world.files.reach (r.output.registryPath contractName))

include hkey hapart

end FinishedRound

/-! ### A file that is no text -/

/-- A tree with a registry file whose first byte starts no character, before a name. -/
def undecodableTree : FileTree where
  home := []
  nodes := [(["o"], .directory), (["o", "s"], .directory),
    (["o", "s", "a.C"], .file (255 :: 10 :: Text.utf8Bytes "m.J".toList))]

def undecodableRound : FinishedRound := (sampleRound? undecodableTree "I").get (by decide +kernel)

theorem undecodableRound_given :
    undecodableRound.output = sampleOutput ∧
      undecodableRound.start = sampleSession undecodableTree "I" :=
  (FinishedRound.of_run?_eq_some (Option.some_get _).symm).2

/-- The system reads the file, but its bytes are no text. -/
theorem exists_undecodable : ∃ e, unreadable? undecodableRound.output
    undecodableRound.start.world.files "a.C" = some e ∧ e.isUnreadable = true ∧
      e.isSystem = false := by
  have hkinds : (unreadable? undecodableRound.output undecodableRound.start.world.files "a.C").map
      (fun e => (e.isUnreadable, e.isSystem)) = some (true, false) := by
    rw [undecodableRound_given.1, undecodableRound_given.2]
    decide +kernel
  obtain ⟨e, he, hkind⟩ := Option.map_eq_some_iff.mp hkinds
  obtain ⟨hunreadable, hsystem⟩ := Prod.mk.inj hkind
  exact ⟨e, he, hunreadable, hsystem⟩

/-- What the round accepts, and that it generates nothing. -/
theorem undecodableRound_accepts : undecodableRound.bindings.map (·.key) = ["a.C"] ∧
    undecodableRound.names "a.C" = ["m.I"] ∧ undecodableRound.outcome.generatedSources = [] := by
  decide +kernel

theorem isFileName_undecodableRound : ∀ b ∈ undecodableRound.bindings, IsFileName b.key := by
  intro b hb
  have hkey := List.mem_map_of_mem (f := (·.key)) hb
  rw [undecodableRound_accepts.1, List.mem_singleton] at hkey
  rw [hkey]
  decide

end ProviderRegistry
