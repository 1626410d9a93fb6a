import ClassLedger.Zstd.Fse
import ClassLedger.Zstd.Register

/-!
# Huffman-coded bytes

The code of a byte has a weight, larger for shorter codes, and 0 if the byte does not occur.  The weights are listed
for the bytes in order except the last one, whose weight fills the code up.  A table gives, for the next bits of the
stream, the byte and how many of the bits belong to it.  Long streams are decoded two bytes at a time where two codes
fit into the bits that are looked at.
-/

namespace ClassLedger.Zstd

/-- The bytes and the lengths of their codes by the next `log` bits. -/
structure HuffmanTable where
  log : Nat
  codes : Array (UInt8 × Nat)
  /-- Whether two bytes are looked up at a time. -/
  paired : Bool

namespace HuffmanTable

/-! ### Reading a table -/

/-- Decodes weights with two alternating states until the stream is used up; at most 255 fit. -/
def readWeights (t : FseTable) (room : Nat) (s : BitStack) (first second : Nat) (weights : List Nat) :
    Option (List Nat) :=
  match room with
  | 0 | 1 => none
  | room + 1 =>
    let state := t.state first
    let weights := state.symbol :: weights
    if s.left < state.bits then some ((t.state second).symbol :: weights).reverse
    else
      let next := state.base + s.peek state.bits
      readWeights t room (s.skip state.bits) second next weights

/-- How many weights a table of weights may have: small tables leave room for more. -/
def weightKinds (log : Nat) : Nat := if log = 6 then 12 else 92

/-- The weights in an entropy-coded description of `size` bytes. -/
def codedWeights (data : ByteArray) (start size : Nat) : Option (List Nat) := do
  let (table, stream) ← FseTable.read? data start (start + size) weightKinds 6
  let s ← BitStack.open? data stream (start + size - stream)
  let (first, s) ← s.take? table.log
  let (second, s) ← s.take? table.log
  readWeights table 255 s first second []

/-- The weights in a plain description, two in a byte. -/
def plainWeights (data : ByteArray) (start count : Nat) : List Nat :=
  (List.range count).map fun i =>
    let b := (byteAt data (start + i / 2)).toNat
    if i % 2 = 0 then b / 16 else b % 16

/-- All weights, with the one of the last byte; they must fill a code of at most 12 bits, with its longest codes in
pairs. -/
def complete (weights : List Nat) : Option (List Nat × Nat) :=
  let total := weights.foldl (fun sum w => sum + (1 <<< w) / 2) 0
  let log := total.log2 + 1
  let rest := (1 <<< log) - total
  let weights := weights ++ [rest.log2 + 1]
  let longest := weights.count 1
  if weights.any (12 < ·) ∨ total = 0 ∨ 12 < log ∨ 1 <<< rest.log2 ≠ rest ∨ longest < 2 ∨ longest % 2 = 1 then none
  else some (weights, log)

/-- The number of bits that are looked at when the longest code has `log` bits. -/
def lookupBits (log : Nat) : Nat := if log ≤ 11 then 11 else log

/-- The table for complete weights: the longest codes come first, and codes of one length in the order of bytes. -/
def ofWeights (weights : List Nat) (log : Nat) (paired : Bool) : HuffmanTable :=
  let spare := lookupBits log - log
  let codes := (List.range' 1 log).flatMap fun weight =>
    (weights.zipIdx.filter (·.1 = weight)).flatMap fun (_, symbol) =>
      List.replicate (1 <<< (weight - 1 + spare)) (UInt8.ofNat symbol, log + 1 - weight)
  { log := lookupBits log, codes := codes.toArray, paired }

/-- Reads a table in the bytes from `start` to before `stop`.  The result is the table and the index of the byte
behind it. -/
def read? (data : ByteArray) (start stop : Nat) (paired : Bool) : Option (HuffmanTable × Nat) := do
  let header := (byteAt data start).toNat
  let size := if 128 ≤ header then (header - 127 + 1) / 2 else header
  if stop < start + 1 + size then none
  else
    let weights ←
      if 128 ≤ header then some (plainWeights data (start + 1) (header - 127))
      else codedWeights data (start + 1) size
    let (weights, log) ← complete weights
    return (ofWeights weights log paired, start + 1 + size)

/-! ### Decoding -/

/-- The byte for the bits `value`, and the length of its code. -/
def code (t : HuffmanTable) (value : Nat) : UInt8 × Nat := t.codes.getD value (0, 0)

/-- The second byte for the bits `value` behind a code of `bits` bits, and the length of both codes, if both fit. -/
def second? (t : HuffmanTable) (value bits : Nat) : Option (UInt8 × Nat) :=
  let (byte, more) := t.code ((value <<< bits) % (1 <<< t.log))
  if bits + more ≤ t.log then some (byte, bits + more) else none

/-- Bytes that are decoded from a stream. -/
structure Decoding where
  register : Register
  out : ByteArray
  /-- How many bytes are to be decoded yet. -/
  left : Nat

/-- Decodes one byte. -/
def single (t : HuffmanTable) (d : Decoding) : Decoding :=
  let (byte, bits) := t.code (d.register.peek t.log)
  { register := d.register.skip bits, out := d.out.push byte, left := d.left - 1 }

/-- Decodes one byte or two. -/
def pair (t : HuffmanTable) (d : Decoding) : Decoding :=
  let value := d.register.peek t.log
  let (byte, bits) := t.code value
  match t.second? value bits with
  | none => { register := d.register.skip bits, out := d.out.push byte, left := d.left - 1 }
  | some (next, bits) =>
    { register := d.register.skip bits, out := (d.out.push byte).push next, left := d.left - 2 }

/-- Decodes the last byte.  A look-up that gives two bytes uses up the bits of both, as far as there are any. -/
def last (t : HuffmanTable) (d : Decoding) : Decoding :=
  let value := d.register.peek t.log
  let (byte, bits) := t.code value
  let register :=
    match t.second? value bits with
    | none => d.register.skip bits
    | some (_, bits) =>
      if d.register.used < 64 then { d.register with used := min 64 (d.register.used + bits) } else d.register
  { register, out := d.out.push byte, left := d.left - 1 }

/-- Repeats a step `count` times. -/
def times (count : Nat) (step : Decoding → Decoding) (d : Decoding) : Decoding :=
  match count with
  | 0 => d
  | count + 1 => times count step (step d)

/-- Decodes one byte at a time, four after each loading of the register while it can be lowered. -/
def decodeSingles (t : HuffmanTable) (fuel : Nat) (d : Decoding) : Decoding :=
  let (register, more) := d.register.reload
  let d := { d with register }
  match fuel with
  | fuel + 1 => if more ∧ 3 < d.left then decodeSingles t fuel (times 4 t.single d) else times d.left t.single d
  | 0 => times d.left t.single d

/-- Decodes while at least two bytes are left, without loading the register. -/
def drainPairs (t : HuffmanTable) (fuel : Nat) (d : Decoding) : Decoding :=
  match fuel with
  | fuel + 1 => if 2 ≤ d.left then drainPairs t fuel (t.pair d) else d
  | 0 => d

/-- Decodes while at least two bytes are left, loading the register before each look-up while it can be lowered. -/
def closePairs (t : HuffmanTable) (fuel : Nat) (d : Decoding) : Decoding :=
  let (register, more) := d.register.reload
  let d := { d with register }
  match fuel with
  | fuel + 1 => if more ∧ 2 ≤ d.left then closePairs t fuel (t.pair d) else drainPairs t d.left d
  | 0 => drainPairs t d.left d

/-- Decodes by look-ups that give one byte or two, several after each loading of the register while it can be lowered
and enough bytes are left for them. -/
def decodePairs (t : HuffmanTable) (fuel : Nat) (d : Decoding) : Decoding :=
  let (register, more) := d.register.reload
  let d := { d with register }
  let batch := if t.log ≤ 11 then 5 else 4
  let finish (d : Decoding) : Decoding :=
    let d := if 2 ≤ d.left then closePairs t d.left d else d
    if d.left = 0 then d else t.last d
  match fuel with
  | fuel + 1 => if more ∧ 2 * batch ≤ d.left then decodePairs t fuel (times batch t.pair d) else finish d
  | 0 => finish d

/-- Decodes all that is left. -/
def decode (t : HuffmanTable) (d : Decoding) : Decoding :=
  if t.paired then decodePairs t d.left d else decodeSingles t d.left d

/-- Decodes `count` bytes onto `out` from the stream in `size` bytes, which must be used up exactly. -/
def decodeStream? (t : HuffmanTable) (data : ByteArray) (start size count : Nat) (out : ByteArray) :
    Option ByteArray := do
  let register ← Register.open? data start size
  let d := t.decode { register, out, left := count }
  if d.register.isFinished then some d.out else none

end HuffmanTable

end ClassLedger.Zstd
