import ProviderRegistry.Text.Quoted

/-!
# Encodings

Texts as bytes and back, in the three encodings that files may have. UTF-8 is
read one character at a time: `nextChar` says whether the bytes start with a
character, are cut off inside one, or cannot start a text. A whole file is
decoded at once (`decode`); a stream is decoded block by block, with the bytes
of an unfinished character carried over to the next block (`decodeStream`), so
that the two report the same faults at different positions.
-/

namespace ProviderRegistry.Text

/-- How characters are written as bytes. -/
inductive Encoding where
  | utf8
  | ascii
  | latin1
  deriving DecidableEq, Repr

/-- Why bytes are not a text. -/
inductive DecodeReason where
  | invalidStart
  | invalidContinuation
  | unexpectedEnd
  | outOfRange
  deriving DecidableEq, Repr

/-- Bytes that are not a text, with their position. -/
structure DecodeError where
  encoding : Encoding
  /-- The position of the first offending byte. -/
  position : Nat
  /-- The offending bytes, of which there is at least one. -/
  bytes : List UInt8
  reason : DecodeReason
  deriving DecidableEq, Repr

/-- A run of characters that an encoding has no bytes for. -/
structure EncodeError where
  encoding : Encoding
  position : Nat
  chars : List Char
  deriving DecidableEq, Repr

namespace Encoding

/-- The name an encoding goes by in messages. -/
def label : Encoding → String
  | utf8 => "utf-8"
  | ascii => "ascii"
  | latin1 => "latin-1"

/-- The spellings that name an encoding, in lower case and with underscores. -/
def spellings : List (String × Encoding) :=
  (["utf_8", "utf8", "u8", "utf", "utf8_ucs2", "utf8_ucs4", "cp65001"].map (·, utf8)) ++
  (["ascii", "646", "ansi_x3.4_1968", "ansi_x3_4_1968", "ansi_x3.4_1986", "cp367", "csascii",
    "ibm367", "iso646_us", "iso_646.irv_1991", "iso_ir_6", "us", "us_ascii"].map (·, ascii)) ++
  (["latin_1", "latin1", "latin", "l1", "8859", "cp819", "csisolatin1", "ibm819", "iso8859",
    "iso8859_1", "iso_8859_1", "iso_8859_1_1987", "iso_ir_100"].map (·, latin1))

/-- The encoding that a name stands for: case does not matter, and a hyphen or
a blank is an underscore. -/
def ofName? (name : String) : Option Encoding :=
  let key := String.ofList (name.toList.map fun c =>
    if c == '-' || c == ' ' then '_' else c.toLower)
  spellings.lookup key

end Encoding

/-- What a sequence of bytes starts with. -/
inductive NextChar where
  /-- A character of `size` bytes. -/
  | char (c : Char) (size : Nat)
  /-- All the bytes, of a character that needs more. -/
  | cutOff
  /-- `size` bytes that no character starts with. -/
  | invalid (size : Nat) (reason : DecodeReason)

/-- Whether a byte continues a character. -/
def isContinuation (b : UInt8) : Bool := 128 ≤ b && b < 192

/-- The number that the last six bits of a continuation byte add. -/
def appendBits (high : Nat) (b : UInt8) : Nat := high * 64 + (b.toNat - 128)

/-- What a sequence of bytes starts with in UTF-8: the shortest form only, no
surrogates and nothing above the last code point. -/
def nextChar : List UInt8 → NextChar
  | [] => .cutOff
  | a :: rest =>
    if a < 128 then .char (Char.ofNat a.toNat) 1
    else if a < 194 || 245 ≤ a then .invalid 1 .invalidStart
    else if a < 224 then
      match rest with
      | [] => .cutOff
      | b :: _ =>
        if isContinuation b then .char (Char.ofNat (appendBits (a.toNat - 192) b)) 2
        else .invalid 1 .invalidContinuation
    else if a < 240 then
      match rest with
      | [] => .cutOff
      | b :: rest =>
        if !isContinuation b || (a == 224 && b < 160) || (a == 237 && 160 ≤ b) then
          .invalid 1 .invalidContinuation
        else match rest with
          | [] => .cutOff
          | c :: _ =>
            if isContinuation c then
              .char (Char.ofNat (appendBits (appendBits (a.toNat - 224) b) c)) 3
            else .invalid 2 .invalidContinuation
    else
      match rest with
      | [] => .cutOff
      | b :: rest =>
        if !isContinuation b || (a == 240 && b < 144) || (a == 244 && 144 ≤ b) then
          .invalid 1 .invalidContinuation
        else match rest with
          | [] => .cutOff
          | c :: rest =>
            if !isContinuation c then .invalid 2 .invalidContinuation
            else match rest with
              | [] => .cutOff
              | d :: _ =>
                if isContinuation d then
                  .char (Char.ofNat (appendBits (appendBits (appendBits (a.toNat - 240) b) c) d)) 4
                else .invalid 3 .invalidContinuation

/-- Decodes the bytes that stand at `position`, up to a character that is cut
off: the characters and the bytes left over. Each of the `steps` reads one
character. -/
def decodeUtf8 : (steps position : Nat) → List UInt8 → Except DecodeError (List Char × List UInt8)
  | 0, _, bytes => .ok ([], bytes)
  | steps + 1, position, bytes =>
    if bytes.isEmpty then .ok ([], [])
    else match nextChar bytes with
      | .cutOff => .ok ([], bytes)
      | .invalid size reason => .error ⟨.utf8, position, bytes.take size, reason⟩
      | .char c size =>
        match decodeUtf8 steps (position + size) (bytes.drop size) with
        | .error e => .error e
        | .ok (chars, rest) => .ok (c :: chars, rest)

/-- Decodes bytes below 128. -/
def decodeAscii (position : Nat) : List UInt8 → Except DecodeError (List Char)
  | [] => .ok []
  | b :: rest =>
    if b < 128 then
      match decodeAscii (position + 1) rest with
      | .error e => .error e
      | .ok chars => .ok (Char.ofNat b.toNat :: chars)
    else .error ⟨.ascii, position, [b], .outOfRange⟩

/-- The fault of a text that ends inside a character. -/
def cutOffError (position : Nat) (bytes : List UInt8) : DecodeError :=
  ⟨.utf8, position, bytes, .unexpectedEnd⟩

/-- Decodes a whole file. -/
def decode (encoding : Encoding) (bytes : List UInt8) : Except DecodeError (List Char) :=
  match encoding with
  | .utf8 =>
    match decodeUtf8 bytes.length 0 bytes with
    | .error e => .error e
    | .ok (chars, []) => .ok chars
    | .ok (_, rest) => .error (cutOffError (bytes.length - rest.length) rest)
  | .ascii => decodeAscii 0 bytes
  | .latin1 => .ok (bytes.map fun b => Char.ofNat b.toNat)

/-- The number of bytes in a block of a stream. -/
def blockSize : Nat := 8192

/-- Decodes the blocks of a stream, of which there are at most `blocks`, with
`pending` left over from the block before. Positions count from the first
pending byte. -/
def decodeBlocks (encoding : Encoding) :
    (blocks : Nat) → (pending rest : List UInt8) → Except DecodeError (List Char)
  | 0, _, _ => .ok []
  | blocks + 1, pending, rest =>
    let block := pending ++ rest.take blockSize
    match encoding with
    | .latin1 => .ok (rest.map fun b => Char.ofNat b.toNat)
    | .ascii =>
      if rest.isEmpty then .ok []
      else do
        let chars ← decodeAscii 0 block
        let more ← decodeBlocks encoding blocks [] (rest.drop blockSize)
        return chars ++ more
    | .utf8 =>
      if rest.isEmpty then
        if pending.isEmpty then .ok [] else .error (cutOffError 0 pending)
      else do
        let (chars, pending) ← decodeUtf8 block.length 0 block
        let more ← decodeBlocks encoding blocks pending (rest.drop blockSize)
        return chars ++ more

/-- Decodes a file that is read block by block. -/
def decodeStream (encoding : Encoding) (bytes : List UInt8) : Except DecodeError (List Char) :=
  decodeBlocks encoding (bytes.length + 1) [] bytes

/-- Encodes characters below `limit` as one byte each. The fault is the first
run of characters that are not. -/
def encodeBelow (encoding : Encoding) (limit position : Nat) :
    List Char → Except EncodeError (List UInt8)
  | [] => .ok []
  | c :: rest =>
    if c.toNat < limit then
      match encodeBelow encoding limit (position + 1) rest with
      | .error e => .error e
      | .ok bytes => .ok (c.toNat.toUInt8 :: bytes)
    else .error ⟨encoding, position, c :: rest.takeWhile (limit ≤ ·.toNat)⟩

/-- The bytes of a text in UTF-8. -/
def utf8Bytes (text : List Char) : List UInt8 := text.flatMap String.utf8EncodeChar

/-- Encodes a text. Only UTF-8 has bytes for every character. -/
def encode (encoding : Encoding) (text : List Char) : Except EncodeError (List UInt8) :=
  match encoding with
  | .utf8 => .ok (utf8Bytes text)
  | .ascii => encodeBelow .ascii 128 0 text
  | .latin1 => encodeBelow .latin1 256 0 text

/-- The wording of a reason. -/
def DecodeReason.wording : DecodeReason → String
  | invalidStart => "invalid start byte"
  | invalidContinuation => "invalid continuation byte"
  | unexpectedEnd => "unexpected end of data"
  | outOfRange => "ordinal not in range(128)"

/-- Where a fault of `count` units at `position` lies, for a message about one
or about several. -/
def faultSpan (position count : Nat) : String :=
  if count ≤ 1 then toString position
  else toString position ++ "-" ++ toString (position + count - 1)

/-- The message of a decoding fault. -/
def DecodeError.message (e : DecodeError) : String :=
  let subject := match e.bytes with
    | [b] => "byte 0x" ++ String.ofList (hexDigits 2 b.toNat)
    | _ => "bytes"
  "'" ++ e.encoding.label ++ "' codec can't decode " ++ subject ++ " in position " ++
    faultSpan e.position e.bytes.length ++ ": " ++ e.reason.wording

/-- The message of an encoding fault. -/
def EncodeError.message (e : EncodeError) : String :=
  let subject := match e.chars with
    | [c] => "character '" ++ String.ofList (numericEscape c.toNat) ++ "'"
    | _ => "characters"
  let limit := if e.encoding = .ascii then "128" else "256"
  "'" ++ e.encoding.label ++ "' codec can't encode " ++ subject ++ " in position " ++
    faultSpan e.position e.chars.length ++ ": ordinal not in range(" ++ limit ++ ")"

end ProviderRegistry.Text
