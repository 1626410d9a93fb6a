/-!
# Bits of a byte string

Bits are counted from the least significant one of the first byte.  Entropy-coded streams are read from their end: the
highest set bit of the last byte marks the end, and numbers are taken from below it downwards.
-/

namespace ClassLedger.Zstd

/-- The byte at an index, and 0 outside. -/
def byteAt (data : ByteArray) (i : Nat) : UInt8 :=
  if h : i < data.size then data[i] else 0

/-- The number in `count` bytes, the least significant one first. -/
def littleEndian (data : ByteArray) (i count : Nat) : Nat :=
  match count with
  | 0 => 0
  | count + 1 => (byteAt data i).toNat + 256 * littleEndian data (i + 1) count

/-- The number in the five bytes from index `i`. -/
def window (data : ByteArray) (i : Nat) : UInt64 :=
  (byteAt data i).toUInt64 ||| (byteAt data (i + 1)).toUInt64 <<< 8 ||| (byteAt data (i + 2)).toUInt64 <<< 16 |||
    (byteAt data (i + 3)).toUInt64 <<< 24 ||| (byteAt data (i + 4)).toUInt64 <<< 32

/-- The number in the eight bytes from index `i`. -/
def wordAt (data : ByteArray) (i : Nat) : UInt64 :=
  (byteAt data i).toUInt64 ||| (byteAt data (i + 1)).toUInt64 <<< 8 ||| (byteAt data (i + 2)).toUInt64 <<< 16 |||
    (byteAt data (i + 3)).toUInt64 <<< 24 ||| (byteAt data (i + 4)).toUInt64 <<< 32 |||
    (byteAt data (i + 5)).toUInt64 <<< 40 ||| (byteAt data (i + 6)).toUInt64 <<< 48 |||
    (byteAt data (i + 7)).toUInt64 <<< 56

/-- The number in the `count` bits from `position` on, for at most 32 bits. -/
def bitsAt (data : ByteArray) (position count : Nat) : Nat :=
  ((window data (position / 8) >>> (position % 8).toUInt64) &&& ((1 <<< count.toUInt64) - 1)).toNat

/-- A bit stream that is read from its end. -/
structure BitStack where
  data : ByteArray
  /-- The lowest bit of the stream. -/
  base : Nat
  /-- The number of bits not taken yet. -/
  left : Nat

namespace BitStack

/-- The stream in `size` bytes from index `start`. -/
def open? (data : ByteArray) (start size : Nat) : Option BitStack :=
  let last := byteAt data (start + size - 1)
  if size = 0 ∨ last = 0 then none
  else some { data, base := 8 * start, left := 8 * (size - 1) + last.toNat.log2 }

/-- Takes a number of `count` bits. -/
def take? (count : Nat) (s : BitStack) : Option (Nat × BitStack) :=
  if count ≤ s.left then
    some (bitsAt s.data (s.base + s.left - count) count, { s with left := s.left - count })
  else none

/-- The next `count` bits without taking them; missing ones are 0. -/
def peek (count : Nat) (s : BitStack) : Nat :=
  if count ≤ s.left then bitsAt s.data (s.base + s.left - count) count
  else bitsAt s.data s.base s.left <<< (count - s.left)

/-- Passes over `count` bits, or over all if there are fewer. -/
def skip (count : Nat) (s : BitStack) : BitStack := { s with left := s.left - count }

end BitStack

end ClassLedger.Zstd
