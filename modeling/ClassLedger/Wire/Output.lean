import ClassLedger.Error
import ClassLedger.Limits
import ClassLedger.Text.Utf8
import ClassLedger.Wire.Word

/-!
# Typed output

An output takes bytes; integers, lengths, length-prefixed strings and collections are built from that.  What an
output took before a failure stays written.
-/

namespace ClassLedger.Wire

/-- A write to an output of type `σ`. -/
abbrev Write (σ : Type) := EStateM EncodeError σ

/-- A byte output. -/
class Output (σ : Type) where
  /-- Writes all of `bytes`; `context` names them in errors. -/
  writeBytes (bytes : List UInt8) (context : String) : Write σ Unit

variable {σ α : Type} [Output σ]

/-- Writes an integer with its most significant byte first. -/
def writeInt32 (value : Int32) (context : String) : Write σ Unit :=
  Output.writeBytes (bigEndian value) context

/-- Writes a length, which must not exceed `limit` nor what four bytes hold. -/
def writeLength (length limit : Nat) (field : String) : Write σ Unit :=
  let limit := min limit Limits.prefixValue
  if limit < length then throw (.lengthExceedsLimit field length limit)
  else writeInt32 (.ofNat length) field

/-- Writes a string after its length in bytes. -/
def writeString (s : String) (field : String) : Write σ Unit := do
  let bytes := Text.utf8 s
  writeLength bytes.length Limits.prefixValue field
  Output.writeBytes bytes field

/-- Writes the items of a list one after the other. -/
def writeItems (item : α → Write σ Unit) : List α → Write σ Unit
  | [] => pure ()
  | x :: rest => do
    item x
    writeItems item rest

/-- Writes a collection of at most `limit` items after its length. -/
def writeCollection (items : List α) (limit : Nat) (field : String) (item : α → Write σ Unit) : Write σ Unit := do
  writeLength items.length limit field
  writeItems item items

end ClassLedger.Wire
