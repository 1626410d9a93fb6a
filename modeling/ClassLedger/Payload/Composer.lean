import ClassLedger.Payload.Field
import ClassLedger.Payload.Packed
import ClassLedger.Wire.Buffer
import Std.Data.HashMap

/-!
# Composing a payload

Fields are appended one by one.  A string goes into the table when it is first used, and every later use refers to the
same place.
-/

namespace ClassLedger.Payload

/-- The fields composed so far as bytes, the string table, and the place of each string in it. -/
structure Composer where
  buffer : Wire.Buffer := .empty
  strings : Array String := #[]
  places : Std.HashMap String Nat := {}

namespace Composer

def empty : Composer := {}

/-- Appends a field. -/
def field (c : Composer) (tag value : UInt64) : Composer :=
  { c with buffer := (c.buffer.appendVarint tag).appendVarint value }

/-- Appends a field that holds a flag word. -/
def word (c : Composer) (number : UInt64) (flags : Int32) : Composer :=
  c.field number flags.toUInt32.toUInt64

/-- Appends a field that refers to a string. -/
def text (c : Composer) (number : UInt64) (s : String) : Composer :=
  match c.places[s]? with
  | some place => c.field number (.ofNat place)
  | none =>
    let place := c.strings.size
    { c with strings := c.strings.push s, places := c.places.insert s place }.field number (.ofNat place)

def flags (c : Composer) (tag : Tag) (flags : Int32) : Composer := c.word tag.number flags

def string (c : Composer) (tag : Tag) (s : String) : Composer := c.text tag.number s

/-- The payload in pieces of `size` characters, and the string table. -/
def finish (c : Composer) (size : Nat) : List String × List String :=
  (pack size c.buffer.toList, c.strings.toList)

end Composer

end ClassLedger.Payload
