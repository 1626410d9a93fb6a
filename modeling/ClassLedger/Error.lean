import ClassLedger.Fault
import ClassLedger.Text.Quoted

/-!
# Errors

The causes of failure in reading bytes, in writing bytes and in interpreting a record, each with its text.  A decode
error belongs to one of five classes, and its text starts with the code of its class.
-/

namespace ClassLedger

/-- The coarse classes of decode errors. -/
inductive ErrorClass where
  /-- A snapshot with a foreign magic number or format version. -/
  | framing
  /-- A snapshot that contradicts itself. -/
  | integrity
  /-- A fault of the source. -/
  | transport
  /-- Bytes of a string that are not UTF-8. -/
  | text
  /-- Anything else that is wrong with the layout. -/
  | layout
  deriving DecidableEq

def ErrorClass.code : ErrorClass → String
  | framing => "E001"
  | integrity => "E002"
  | transport => "E003"
  | text => "E004"
  | layout => "E005"

/-- Why bytes could not be read as a record or a snapshot.  `field` and `context` name what was being read. -/
inductive DecodeError where
  /-- The first four bytes belong to no known framing. -/
  | invalidMagic (found : List UInt8)
  | unsupportedVersion (version : UInt8)
  | checksumMismatch
  | duplicateEntry (name : String)
  /-- The source reported a fault. -/
  | transport (context : String) (fault : Fault)
  | invalidText (field : String)
  /-- The bytes ended inside `context`. -/
  | endOfInput (context : String)
  | negativeLength (field : String) (length : Int32)
  | lengthExceedsLimit (field : String) (length limit : Nat)
  | varintTooLong
  | varintOverflow
  | trailingBytes (count : Nat)
  /-- The compressed frames cannot be decoded, for the reason that their decoder gives. -/
  | decompressionFailed (message : String)
  | sizeMismatch (declared actual : Nat)
  deriving DecidableEq

/-- The error for a fault met in `context`; a source that reports its end as a fault has simply ended. -/
def DecodeError.ofFault (context : String) (fault : Fault) : DecodeError :=
  if fault.kind = .unexpectedEnd then .endOfInput context else .transport context fault

def DecodeError.errorClass : DecodeError → ErrorClass
  | invalidMagic _ | unsupportedVersion _ => .framing
  | checksumMismatch | duplicateEntry _ => .integrity
  | transport .. => .transport
  | invalidText _ => .text
  | endOfInput _ | negativeLength .. | lengthExceedsLimit .. | varintTooLong | varintOverflow
  | trailingBytes _ | decompressionFailed _ | sizeMismatch .. => .layout

/-- What went wrong, without the code of the class. -/
def DecodeError.detail : DecodeError → String
  | invalidMagic found =>
    s!"invalid magic bytes: expected KTMS or KTMSZ, found {Text.bracketed (found.map fun b => toString b.toNat)}"
  | unsupportedVersion version => s!"unsupported snapshot format version: {version.toNat}"
  | checksumMismatch => "snapshot checksum mismatch"
  | duplicateEntry name => s!"duplicate snapshot entry for class {Text.quoted name}"
  | transport context fault => s!"stream error while reading {context}: {fault.message}"
  | invalidText field => s!"invalid UTF-8 in {field}"
  | endOfInput context => s!"unexpected end of input while reading {context}"
  | negativeLength field length => s!"{field} has negative length {length.toInt}"
  | lengthExceedsLimit field length limit => s!"{field} length {length} exceeds maximum {limit}"
  | varintTooLong => "varint exceeds maximum length (10 bytes)"
  | varintOverflow => "varint overflow (value exceeds u64)"
  | trailingBytes count => s!"{count} unexpected trailing bytes"
  | decompressionFailed message => s!"zstd decompression failed: {message}"
  | sizeMismatch declared actual => s!"decompressed size {actual} doesn't match declared {declared}"

def DecodeError.message (e : DecodeError) : String :=
  s!"[{e.errorClass.code}] {e.detail}"

/-- Why a record or a snapshot could not be written. -/
inductive EncodeError where
  | lengthExceedsLimit (field : String) (length limit : Nat)
  /-- The sink reported a fault. -/
  | transport (context : String) (fault : Fault)
  /-- The content could not be compressed, for the reason that the compressor gives. -/
  | compressionFailed (message : String)
  deriving DecidableEq

def EncodeError.message : EncodeError → String
  | lengthExceedsLimit field length limit => s!"{field} length {length} exceeds maximum {limit}"
  | transport context fault => s!"stream error while writing {context}: {fault.message}"
  | compressionFailed message => s!"zstd compression failed: {message}"

/-- Why the fields of a record do not describe a shape. -/
inductive InterpretError where
  | incompatibleVersion (version : List Int32)
  /-- A payload character above `U+00FF`. -/
  | characterOutOfRange (c : Char)
  /-- The payload bytes end or overflow inside a field. -/
  | malformedPayload (cause : DecodeError)
  | stringIndexOutOfBounds (index : UInt64) (size : Nat)
  | unknownTag (tag : UInt64)
  /-- A field that exists but has no place in payloads of this shape. -/
  | unexpectedField (tag : UInt64) (shape : String)
  | orphanFlags
  | flagsOverflow (value : UInt64)
  | missingClassName
  | duplicateClassName
  | multipleLambdas
  /-- The interpreter did not return. -/
  | crashed (message : String)
  deriving DecidableEq

def InterpretError.message : InterpretError → String
  | incompatibleVersion version =>
    s!"incompatible metadata version {Text.bracketed (version.map fun part => toString part.toInt)}"
  | characterOutOfRange c => s!"payload character {Text.quotedChar c} does not fit in a byte"
  | malformedPayload cause => s!"malformed payload: {cause.message}"
  | stringIndexOutOfBounds index size => s!"string table index {index.toNat} out of bounds (size: {size})"
  | unknownTag tag => s!"unknown payload field tag {tag.toNat}"
  | unexpectedField tag shape => s!"field tag {tag.toNat} is not allowed in a {shape} payload"
  | orphanFlags => "member flags without a preceding member"
  | flagsOverflow value => s!"value {value.toNat} does not fit in a flag word"
  | missingClassName => "class payload has no class name"
  | duplicateClassName => "class payload declares more than one class name"
  | multipleLambdas => "synthetic class payload declares more than one function"
  | crashed message => s!"interpreter panicked: {message}"

end ClassLedger
