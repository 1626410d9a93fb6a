import ClassLedger.Zstd.FourStreams

/-!
# Literals of a block

A compressed block starts with its literals, the bytes that are not copied from earlier content.  They are stored as
they are, as one repeated byte, or Huffman-coded with a table of their own or the table of an earlier block, in one
stream or in four.
-/

namespace ClassLedger.Zstd

/-- The literals of a block and what follows them. -/
structure Literals where
  bytes : ByteArray
  /-- Whether they stand as they are well inside the block, so that they need no room of their own. -/
  inPlace : Bool := false
  /-- The table for later blocks. -/
  table : Option HuffmanTable
  /-- The index of the byte behind the section. -/
  stop : Nat

namespace Literals

/-- The cost of looking up one byte at a time and of looking up two, for four streams whose size is `share` sixteenths
of what they hold: the cost of the table, and of 256 bytes. -/
def lookupCosts (share : Nat) : (Nat × Nat) × (Nat × Nat) :=
  #[((0, 0), (1, 1)), ((0, 0), (1, 1)), ((150, 216), (381, 119)), ((170, 205), (514, 112)), ((177, 199), (539, 110)),
    ((197, 194), (644, 107)), ((221, 192), (735, 107)), ((256, 189), (881, 106)), ((359, 188), (1167, 109)),
    ((582, 187), (1570, 114)), ((688, 187), (1712, 122)), ((825, 186), (1965, 136)), ((976, 185), (2131, 150)),
    ((1180, 186), (2070, 175)), ((1377, 185), (1731, 202)), ((1412, 185), (1695, 202))].getD share ((0, 0), (1, 1))

/-- Whether `count` bytes in four streams of `size` bytes are looked up two at a time: where that costs less, with a
handicap of a thirty-second. -/
def prefersPairs (count size : Nat) : Bool :=
  let (single, double) := lookupCosts (if count ≤ size then 15 else size * 16 / count)
  let cost := double.1 + double.2 * (count / 256)
  cost + cost / 32 < single.1 + single.2 * (count / 256)

/-- Decodes one stream or four. -/
def decodeStreams (t : HuffmanTable) (data : ByteArray) (start stop count : Nat) (single : Bool) :
    Option ByteArray :=
  if single then t.decodeStream? data start (stop - start) count ByteArray.empty
  else t.decodeFour? data start stop count

/-- Reads literals with the Huffman table `known`, or with one that stands before the streams. -/
def readCoded (data : ByteArray) (start stop most : Nat) (known : Option HuffmanTable) : Option Literals :=
  let format := bitsAt data (8 * start + 2) 2
  let (header, sizeBits) : Nat × Nat :=
    match format with
    | 2 => (4, 14)
    | 3 => (5, 18)
    | _ => (3, 10)
  let count := bitsAt data (8 * start + 4) sizeBits
  let size := bitsAt data (8 * start + 4 + sizeBits) sizeBits
  let single := format = 0
  let first := start + header
  if stop < start + 5 ∨ most < count ∨ (!single ∧ count < 6) ∨ stop < first + size then none
  else
    match known with
    | some table => do
      let bytes ← decodeStreams table data first (first + size) count single
      return { bytes, table, stop := first + size }
    | none => do
      let (table, streams) ← HuffmanTable.read? data first (first + size) (!single && prefersPairs count size)
      if first + size ≤ streams then none
      else
        let bytes ← decodeStreams table data streams (first + size) count single
        return { bytes, table, stop := first + size }

/-- Reads literals that are stored as they are, or as one repeated byte. -/
def readPlain (data : ByteArray) (start stop most : Nat) (repeated : Bool) (known : Option HuffmanTable) :
    Option Literals :=
  let (header, count) : Nat × Nat :=
    match bitsAt data (8 * start + 2) 2 with
    | 1 => (2, bitsAt data (8 * start + 4) 12)
    | 3 => (3, bitsAt data (8 * start + 4) 20)
    | _ => (1, bitsAt data (8 * start + 3) 5)
  let first := start + header
  let size := if repeated then 1 else count
  if most < count ∨ stop < first + size then none
  else
    let bytes :=
      if repeated then ByteArray.mk (Array.replicate count (byteAt data first))
      else data.extract first (first + count)
    some { bytes, inPlace := !repeated && first + count + 32 ≤ stop, table := known, stop := first + size }

/-- Reads the literals of the block in the bytes from `start` to before `stop`.  There are `most` of them at most, and
`known` is the table of an earlier block. -/
def read? (data : ByteArray) (start stop most : Nat) (known : Option HuffmanTable) : Option Literals :=
  if stop < start + 2 then none
  else
    match bitsAt data (8 * start) 2 with
    | 0 => readPlain data start stop most false known
    | 1 => readPlain data start stop most true known
    | 2 => readCoded data start stop most none
    | _ =>
      match known with
      | some table => readCoded data start stop most (some table)
      | none => none

end Literals

end ClassLedger.Zstd
