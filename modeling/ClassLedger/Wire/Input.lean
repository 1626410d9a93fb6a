import ClassLedger.Error
import ClassLedger.Limits

/-!
# Typed input

An input delivers integers and strings of a known length; lengths, length-prefixed strings and collections are built
from these two, so every input agrees on them.  A failed read leaves the input where the failure was noticed.
-/

namespace ClassLedger.Wire

/-- A read from an input of type `σ`, which keeps its position also when the read fails. -/
abbrev Read (σ : Type) := EStateM DecodeError σ

/-- A byte input. -/
class Input (σ : Type) where
  /-- Reads a big-endian integer; `context` names it in errors. -/
  readInt32 (context : String) : Read σ Int32
  /-- Reads exactly `length` bytes as a string. -/
  readText (length : Nat) (field : String) : Read σ String

variable {σ α : Type} [Input σ]

/-- Reads a length from 0 to `limit`. -/
def readLength (limit : Nat) (field : String) : Read σ Nat := do
  let length ← Input.readInt32 field
  let count := length.toInt.toNat
  if length.toInt < 0 then throw (.negativeLength field length)
  else if limit < count then throw (.lengthExceedsLimit field count limit)
  else return count

/-- Reads a string after its length in bytes. -/
def readString (field : String) : Read σ String := do
  let length ← readLength Limits.stringBytes field
  Input.readText length field

/-- Reads `count` items onto `before`, the items read so far with the last one first. -/
def readItems (item : Read σ α) (count : Nat) (before : List α) : Read σ (List α) :=
  match count with
  | 0 => pure before.reverse
  | rest + 1 => do
    let x ← item
    readItems item rest (x :: before)

/-- Reads a collection of at most `limit` items after its length. -/
def readCollection (limit : Nat) (field : String) (item : Read σ α) : Read σ (List α) := do
  let count ← readLength limit field
  readItems item count []

end ClassLedger.Wire
