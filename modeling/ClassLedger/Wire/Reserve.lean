import ClassLedger.Wire.Buffer

/-!
# Writing into reserved memory

A reserve is a buffer whose memory was asked for in advance.  Bytes that still fit are put behind those that are there.
Bytes that do not fit make the whole buffer move to larger memory; how much larger is up to the allocator.
-/

namespace ClassLedger.Wire

/-- A buffer in memory of a known size. -/
structure Reserve where
  buffer : Buffer
  /-- The number of bytes that the memory holds. -/
  capacity : Nat
  fits : buffer.size ≤ capacity
  /-- How much more than necessary the allocator gives, counted from the first move. -/
  slack : Nat → Nat
  /-- How often the buffer was moved. -/
  moves : Nat

namespace Reserve

/-- An empty buffer in memory for `capacity` bytes. -/
def ofCapacity (capacity : Nat) (slack : Nat → Nat) : Reserve where
  buffer := .empty
  capacity
  fits := Nat.zero_le capacity
  slack
  moves := 0

/-- The buffer with more bytes at its end, in the same memory if they fit there. -/
def append (v : Reserve) (bytes : List UInt8) : Reserve :=
  let buffer := v.buffer.append bytes
  if fits : buffer.size ≤ v.capacity then { v with buffer, fits }
  else
    let capacity := buffer.size + v.slack v.moves
    { v with buffer, capacity, fits := Nat.le_add_right .., moves := v.moves + 1 }

instance : Output Reserve where
  writeBytes bytes _ := modify fun v => v.append bytes

end Reserve

end ClassLedger.Wire
