import ClassLedger.Wire.Output
import ClassLedger.Wire.Varint

/-!
# Writing into memory

A buffer takes every byte it is given and fails never.
-/

namespace ClassLedger.Wire

/-- The bytes written so far. -/
structure Buffer where
  bytes : Array UInt8 := #[]

namespace Buffer

def empty : Buffer := {}

def toList (b : Buffer) : List UInt8 := b.bytes.toList

def size (b : Buffer) : Nat := b.bytes.size

def isEmpty (b : Buffer) : Bool := b.bytes.isEmpty

/-- The buffer with more bytes at its end. -/
def append (b : Buffer) (bytes : List UInt8) : Buffer := { bytes := b.bytes ++ bytes }

@[simp]
theorem toList_empty : empty.toList = [] := rfl

@[simp]
theorem toList_append (b : Buffer) (bytes : List UInt8) : (b.append bytes).toList = b.toList ++ bytes := by
  simp [append, toList]

theorem length_toList (b : Buffer) : b.toList.length = b.size := Array.length_toList

theorem size_append (b : Buffer) (bytes : List UInt8) : (b.append bytes).size = b.size + bytes.length := by
  rw [← length_toList, toList_append, List.length_append, length_toList]

/-- The buffer with one more byte at its end. -/
def push (b : Buffer) (byte : UInt8) : Buffer := b.append [byte]

/-- The buffer with a variable-length integer at its end. -/
def appendVarint (b : Buffer) (value : UInt64) : Buffer := b.append (varint value.toNat)

instance : Output Buffer where
  writeBytes bytes _ := modify fun b => b.append bytes

end Buffer

/-- The bytes that a write puts into an empty buffer, or its error. -/
def written (write : Write Buffer Unit) : Except EncodeError (List UInt8) :=
  match write Buffer.empty with
  | .ok _ b => .ok b.toList
  | .error e _ => .error e

end ClassLedger.Wire
