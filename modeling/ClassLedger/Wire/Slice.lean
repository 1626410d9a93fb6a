import ClassLedger.Text.Utf8
import ClassLedger.Wire.Input
import ClassLedger.Wire.Word

/-!
# Reading from a byte string

A slice is a byte string together with the place up to which it was read.  A read of a fixed number of bytes that
meets the end reads nothing at all.
-/

namespace ClassLedger.Wire

/-- The unread end of a byte string, and the number of bytes before it. -/
structure Slice where
  rest : List UInt8
  position : Nat := 0

namespace Slice

/-- The slice of a whole byte string. -/
def ofList (bytes : List UInt8) : Slice := { rest := bytes }

def isEmpty (s : Slice) : Bool := s.rest.isEmpty

/-- The number of unread bytes. -/
def remaining (s : Slice) : Nat := s.rest.length

def readByte (context : String) : Read Slice UInt8 := fun s =>
  match s.rest with
  | [] => .error (.endOfInput context) s
  | b :: rest => .ok b { rest, position := s.position + 1 }

def readBytes (count : Nat) (context : String) : Read Slice (List UInt8) := fun s =>
  let (taken, rest) := s.rest.splitAt count
  if taken.length = count then .ok taken { rest, position := s.position + count }
  else .error (.endOfInput context) s

def readInt32 (context : String) : Read Slice Int32 := fun s =>
  match s.rest with
  | a :: b :: c :: d :: rest => .ok (ofBigEndian a b c d) { rest, position := s.position + 4 }
  | _ => .error (.endOfInput context) s

def readText (length : Nat) (field : String) : Read Slice String := do
  let bytes ← readBytes length field
  match Text.ofUtf8? bytes with
  | some s => return s
  | none => throw (.invalidText field)

instance : Input Slice where
  readInt32 := readInt32
  readText := readText

end Slice

end ClassLedger.Wire
