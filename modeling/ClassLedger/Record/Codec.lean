import ClassLedger.Record.Basic
import ClassLedger.Wire.Buffer

/-!
# The byte form of a record

The seven fields stand one after the other without a header: `kind`, `version`, the payload (`data1`), the string
table (`data2`), `extra_string`, `package_name` and `extra_int`.  The names of the fields appear in errors.
-/

namespace ClassLedger.Record

open Wire

/-- Reads one record and stops directly after it. -/
def read {σ : Type} [Input σ] : Read σ Record := do
  let kind ← Input.readInt32 "kind"
  let version ← readCollection Limits.versionParts "version" (Input.readInt32 "version")
  let payload ← readCollection Limits.elements "data1" (readString "data1")
  let strings ← readCollection Limits.elements "data2" (readString "data2")
  let extraText ← readString "extra_string"
  let packageName ← readString "package_name"
  let extraFlags ← Input.readInt32 "extra_int"
  return ofFields kind (some version) (some payload) (some strings) (some extraText) (some packageName) extraFlags

/-- Writes one record; only a length beyond four bytes or the output can make it fail. -/
def write {σ : Type} [Output σ] (r : Record) : Write σ Unit := do
  writeInt32 r.kind "kind"
  writeCollection r.version Limits.prefixValue "version" fun part => writeInt32 part "version"
  writeCollection r.payload Limits.prefixValue "data1" fun s => writeString s "data1"
  writeCollection r.strings Limits.prefixValue "data2" fun s => writeString s "data2"
  writeString r.extraText "extra_string"
  writeString r.packageName "package_name"
  writeInt32 r.extraFlags "extra_int"

/-- The bytes of a record. -/
def encode (r : Record) : Except EncodeError (List UInt8) := written r.write

/-- The record that takes up all of `bytes`. -/
def decode (bytes : List UInt8) : Except DecodeError Record :=
  match (read : Read Slice Record) (.ofList bytes) with
  | .ok r s => if s.isEmpty then .ok r else .error (.trailingBytes s.remaining)
  | .error e _ => .error e

/-- The number of bytes that a list of strings takes up after its count. -/
def stringsLength : List String → Nat
  | [] => 0
  | s :: rest => 4 + s.utf8ByteSize + stringsLength rest

/-- The number of bytes that the record takes up: seven integers and lengths, and what stands between them. -/
def encodedLength (r : Record) : Nat :=
  4 * 7 + 4 * r.version.length + stringsLength r.payload + stringsLength r.strings +
    r.extraText.utf8ByteSize + r.packageName.utf8ByteSize

end ClassLedger.Record
