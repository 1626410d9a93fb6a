import ClassLedger.Delivery
import ClassLedger.Digest.Sha256
import ClassLedger.Record.Codec
import ClassLedger.Snapshot.Basic

/-!
# The byte form of a snapshot

The plain form is the magic number `KTMS`, a version byte, the number of entries, each entry as its name and its
record, and a digest of everything before it.  The compressed form is the magic number `KTMSZ`, the size of the plain
form as a variable-length integer, and the plain form in compressed frames.  The digest and the compression are
parameters, so what is proved of the format does not depend on them.
-/

namespace ClassLedger

open Wire

/-- The functions on bytes that the format builds on.  Those that can fail say why. -/
structure Primitives where
  digest : List UInt8 → Digest
  /-- Compresses at a level. -/
  deflate : Int32 → List UInt8 → Except String (List UInt8)
  /-- Starts to decode compressed frames, unless that fails at once.  The content is taken into a buffer of the given
  capacity at first, and up to the given limit; how the frames are decoded may depend on both. -/
  inflate : Nat → Nat → List UInt8 → Except String Delivery

/-- The digest of the byte form of a record. -/
def Record.contentDigest (r : Record) (digest : List UInt8 → Digest) : Except EncodeError Digest :=
  r.encode.map digest

namespace Snapshot

/-- The bytes `KTMS`. -/
def magic : List UInt8 := [0x4B, 0x54, 0x4D, 0x53]

/-- The bytes `KTMSZ`. -/
def compressedMagic : List UInt8 := [0x4B, 0x54, 0x4D, 0x53, 0x5A]

/-- The version of the plain form that is written. -/
def formatVersion : UInt8 := 1

/-- The oldest version that is read. -/
def oldestFormatVersion : UInt8 := 1

/-- The number of bytes of a digest. -/
def digestBytes : Nat := 32

/-- How a snapshot is written. -/
structure Format where
  compressed : Bool := false
  /-- The level of compression. -/
  level : Int32 := 3
  deriving DecidableEq

/-- Compressed at the given level. -/
def Format.compressedAt (level : Int32) : Format := { compressed := true, level }

/-! ### Writing -/

/-- Writes one entry. -/
def writeEntry {σ : Type} [Output σ] (e : String × Record) : Write σ Unit := do
  writeString e.1 "class name"
  e.2.write

/-- Writes everything that the digest covers. -/
def writeBody {σ : Type} [Output σ] (s : Snapshot) : Write σ Unit := do
  Output.writeBytes (magic ++ [formatVersion]) "header"
  writeLength s.size Limits.snapshotEntries "snapshot entries"
  writeItems writeEntry s.entries

/-- The plain form. -/
def encodePlain (p : Primitives) (s : Snapshot) : Except EncodeError (List UInt8) := do
  let body ← written s.writeBody
  let bytes := body ++ (p.digest body).toList
  if Limits.snapshotBytes < bytes.length then
    throw (.lengthExceedsLimit "snapshot" bytes.length Limits.snapshotBytes)
  else return bytes

/-- The bytes of a snapshot. -/
def encode (p : Primitives) (s : Snapshot) (format : Format) : Except EncodeError (List UInt8) := do
  let plain ← s.encodePlain p
  if format.compressed then
    match p.deflate format.level plain with
    | .ok frames => return compressedMagic ++ (varint plain.length ++ frames)
    | .error message => throw (.compressionFailed message)
  else return plain

/-! ### Reading -/

/-- Reads `count` entries into the snapshot `s`. -/
def readEntries {σ : Type} [Input σ] (count : Nat) (s : Snapshot) : Read σ Snapshot :=
  match count with
  | 0 => pure s
  | rest + 1 => do
    let name ← readString "class name"
    let r ← Record.read
    if s.contains name then throw (.duplicateEntry name)
    else readEntries rest (s.insert name r)

/-- Reads the number of entries and the entries. -/
def readBody {σ : Type} [Input σ] : Read σ Snapshot := do
  let count ← readLength Limits.snapshotEntries "snapshot entries"
  readEntries count empty

/-- The snapshot in a plain body behind its header, which must take up all of `body`. -/
def decodeBody (body : List UInt8) : Except DecodeError Snapshot :=
  match (readBody : Read Slice Snapshot) { rest := body, position := 5 } with
  | .ok s rest => if rest.isEmpty then .ok s else .error (.trailingBytes rest.remaining)
  | .error e _ => .error e

/-- The snapshot with the given plain form. -/
def decodePlain (p : Primitives) (bytes : List UInt8) : Except DecodeError Snapshot :=
  if bytes.length < magic.length then .error (.endOfInput "magic")
  else if bytes.take 4 ≠ magic then .error (.invalidMagic (bytes.take 4))
  else
    match bytes.drop 4 with
    | [] => .error (.endOfInput "version")
    | version :: entries =>
      if version < oldestFormatVersion ∨ formatVersion < version then .error (.unsupportedVersion version)
      else if entries.length < digestBytes then .error (.endOfInput "checksum")
      else
        let covered := bytes.length - digestBytes
        if (p.digest (bytes.take covered)).toList ≠ bytes.drop covered then .error .checksumMismatch
        else decodeBody (entries.take (entries.length - digestBytes))

/-- Takes the declared number of bytes out of compressed frames, into a buffer of at most the given capacity.  One byte
more is asked for, to notice a longer content without decoding all of it. -/
def inflateDeclared (p : Primitives) (declared capacity : Nat) (frames : List UInt8) :
    Except DecodeError (List UInt8) :=
  match p.inflate (min declared capacity) (declared + 1) frames >>= Delivery.take (declared + 1) with
  | .error message => .error (.decompressionFailed message)
  | .ok bytes => if bytes.length = declared then .ok bytes else .error (.sizeMismatch declared bytes.length)

/-- The plain form inside what stands behind the compressed magic number.  The declared size is trusted up to four times
the number of bytes when room is made for the content. -/
def decompressBody (p : Primitives) (bytes : List UInt8) : Except DecodeError (List UInt8) :=
  match Slice.readVarint "uncompressed_size" (.ofList bytes) with
  | .error e _ => .error e
  | .ok size rest =>
    if Limits.snapshotBytes < size.toNat then
      .error (.lengthExceedsLimit "uncompressed_size" size.toNat Limits.snapshotBytes)
    else inflateDeclared p size.toNat (4 * bytes.length) rest.rest

/-- The plain form inside a compressed one. -/
def decompress (p : Primitives) (bytes : List UInt8) : Except DecodeError (List UInt8) :=
  if bytes.length < compressedMagic.length then .error (.endOfInput "magic")
  else if bytes.take 5 ≠ compressedMagic then .error (.invalidMagic (bytes.take 4))
  else decompressBody p (bytes.drop 5)

/-- The snapshot with the given bytes, plain or compressed. -/
def decode (p : Primitives) (bytes : List UInt8) : Except DecodeError Snapshot :=
  if bytes.length < magic.length then .error (.endOfInput "magic")
  else if bytes.take 5 = compressedMagic then
    match decompressBody p (bytes.drop 5) with
    | .ok plain => decodePlain p plain
    | .error e => .error e
  else if bytes.take 4 = magic then
    if Limits.snapshotBytes < bytes.length then
      .error (.lengthExceedsLimit "snapshot" bytes.length Limits.snapshotBytes)
    else decodePlain p bytes
  else .error (.invalidMagic (bytes.take 4))

end Snapshot

end ClassLedger
