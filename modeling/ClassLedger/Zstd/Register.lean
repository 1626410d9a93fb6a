import ClassLedger.Zstd.Bits

/-!
# Reading through a register

Huffman streams are read from their end through a register of 64 bits.  Bits are used up from the top of the register,
and it is loaded again from a lower index when some bytes of it are used up, but never from below a floor.  At the
floor it stays as it is.  What is then read beyond its last bit comes from its top once more, which only a damaged
stream does.
-/

namespace ClassLedger.Zstd

/-- A register over a byte string that is read from its end. -/
structure Register where
  data : ByteArray
  /-- The lowest index from which the register may be loaded. -/
  floor : Nat
  /-- The index from which it was loaded. -/
  index : Nat
  word : UInt64
  /-- The number of bits used up. -/
  used : Nat

namespace Register

/-- The register over the stream in `size` bytes from index `start`, whose highest set bit marks the end. -/
def open? (data : ByteArray) (start size : Nat) : Option Register :=
  let last := byteAt data (start + size - 1)
  if size = 0 ∨ last = 0 then none
  else
    let above := 8 - last.toNat.log2
    if 8 ≤ size then
      let index := start + size - 8
      some { data, floor := start, index, word := wordAt data index, used := above }
    else
      let word := (littleEndian data start size).toUInt64
      some { data, floor := start, index := start, word, used := above + 8 * (8 - size) }

/-- The next `count` bits, at least one and at most 64. -/
def peek (count : Nat) (s : Register) : Nat :=
  ((s.word <<< s.used.toUInt64) >>> (64 - count).toUInt64).toNat

/-- Uses up `count` bits. -/
def skip (count : Nat) (s : Register) : Register := { s with used := s.used + count }

/-- Moves the register down by `count` bytes. -/
def lower (count : Nat) (s : Register) : Register :=
  { s with index := s.index - count, word := wordAt s.data (s.index - count), used := s.used - 8 * count }

/-- Loads the register again, and tells whether it could be moved down by all the bytes that are used up and is not at
the floor yet. -/
def reload (s : Register) : Register × Bool :=
  if 64 < s.used ∨ s.index = s.floor then (s, false)
  else
    let count := s.used / 8
    if s.floor + count ≤ s.index then (s.lower count, true) else (s.lower (s.index - s.floor), false)

/-- Whether every bit of the stream is used up and none beyond. -/
def isFinished (s : Register) : Bool := s.index = s.floor && s.used = 64

end Register

end ClassLedger.Zstd
