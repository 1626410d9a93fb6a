import ClassLedger.Zstd.Bits

/-!
# XXH64

A fast checksum of 64 bits: stripes of 32 bytes go through four lanes, the lanes are merged, and the bytes that are
left and the length are mixed in.  The seed is 0.
-/

namespace ClassLedger.XxHash64

def prime1 : UInt64 := 0x9E3779B185EBCA87

def prime2 : UInt64 := 0xC2B2AE3D27D4EB4F

def prime3 : UInt64 := 0x165667B19E3779F9

def prime4 : UInt64 := 0x85EBCA77C2B2AE63

def prime5 : UInt64 := 0x27D4EB2F165667C5

def rotateLeft (x amount : UInt64) : UInt64 := (x <<< amount) ||| (x >>> (64 - amount))

/-- The number in the eight bytes from index `i`. -/
def lane (data : ByteArray) (i : Nat) : UInt64 := (Zstd.littleEndian data i 8).toUInt64

/-- Mixes eight bytes into a lane. -/
def round (acc input : UInt64) : UInt64 := rotateLeft (acc + input * prime2) 31 * prime1

/-- Merges a lane into the result. -/
def merge (acc value : UInt64) : UInt64 := (acc ^^^ round 0 value) * prime1 + prime4

/-- Mixes `count` stripes into the lanes and merges them. -/
def stripes (data : ByteArray) (i count : Nat) (a b c d : UInt64) : UInt64 :=
  match count with
  | 0 =>
    let acc := rotateLeft a 1 + rotateLeft b 7 + rotateLeft c 12 + rotateLeft d 18
    merge (merge (merge (merge acc a) b) c) d
  | count + 1 =>
    stripes data (i + 32) count (round a (lane data i)) (round b (lane data (i + 8)))
      (round c (lane data (i + 16))) (round d (lane data (i + 24)))

/-- Mixes in the bytes from index `i` on: by eight, then by four, then one by one. -/
def tail (data : ByteArray) (i : Nat) (acc : UInt64) : UInt64 :=
  if i + 8 ≤ data.size then
    tail data (i + 8) (rotateLeft (acc ^^^ round 0 (lane data i)) 27 * prime1 + prime4)
  else if i + 4 ≤ data.size then
    let word := (Zstd.littleEndian data i 4).toUInt64
    tail data (i + 4) (rotateLeft (acc ^^^ (word * prime1)) 23 * prime2 + prime3)
  else if i < data.size then
    let byte := (Zstd.byteAt data i).toUInt64
    tail data (i + 1) (rotateLeft (acc ^^^ (byte * prime5)) 11 * prime1)
  else acc
termination_by data.size - i
decreasing_by all_goals omega

def avalanche (h : UInt64) : UInt64 :=
  let h := (h ^^^ (h >>> 33)) * prime2
  let h := (h ^^^ (h >>> 29)) * prime3
  h ^^^ (h >>> 32)

/-- The checksum of a byte string. -/
def checksum (data : ByteArray) : UInt64 :=
  let count := data.size / 32
  let start :=
    if count = 0 then prime5 else stripes data 0 count (prime1 + prime2) prime2 0 (0 - prime1)
  avalanche (tail data (32 * count) (start + data.size.toUInt64))

end ClassLedger.XxHash64
