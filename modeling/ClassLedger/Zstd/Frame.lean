import ClassLedger.Digest.XxHash64
import ClassLedger.Zstd.Content

/-!
# Compressed frames

A frame is a header, blocks up to one that is marked as the last, and perhaps a checksum.  A block holds content as it
is, a run of one byte, or compressed content.  Where all of a frame and room for all of its content are at hand, the
frame is decoded as a whole: its content must have the announced size, but single blocks may give more than the window
allows.
-/

namespace ClassLedger.Zstd

/-- The largest number of bytes in a block. -/
def blockBytes : Nat := 128 * 1024

/-- The number of bytes by which copying may run over. -/
def overrunBytes : Nat := 32

/-! ### Headers -/

/-- The header of a frame. -/
structure Header where
  window : Nat
  contentSize : Option Nat
  hasChecksum : Bool

/-- The largest number of bytes in a block of this frame. -/
def Header.blockLimit (h : Header) : Nat := min h.window blockBytes

/-- The number that frames begin with. -/
def frameMagic : Nat := 0xFD2FB528

/-- The header that stands for the one of a skippable frame, which announces nothing. -/
def Header.skippable : Header := { window := 0, contentSize := none, hasChecksum := false }

/-- How many bytes the header takes up whose fifth byte is `descriptor`. -/
def Header.length (descriptor : Nat) : Nat :=
  let single := descriptor / 32 % 2
  let idSize := #[0, 1, 2, 4].getD (descriptor % 4) 0
  let sizeSize := #[single, 2, 4, 8].getD (descriptor / 64) 0
  5 + (1 - single) + idSize + sizeSize

/-- Reads the header of the frame at index `start`.  Reserved bits, dictionaries and windows of four gigabytes and
more are refused. -/
def Header.read? (data : ByteArray) (start : Nat) : Option Header :=
  let descriptor := (byteAt data (start + 4)).toNat
  let single := descriptor / 32 % 2 = 1
  let stop := start + Header.length descriptor
  let sizeSize := #[if single then 1 else 0, 2, 4, 8].getD (descriptor / 64) 0
  let idSize := #[0, 1, 2, 4].getD (descriptor % 4) 0
  let sizeField := littleEndian data (stop - sizeSize) sizeSize
  let size := if sizeSize = 2 then sizeField + 256 else sizeField
  let contentSize := if sizeSize = 0 ∨ size = 18446744073709551615 then none else some size
  let exponent := (byteAt data (start + 5)).toNat / 8 + 10
  let eighths := (byteAt data (start + 5)).toNat % 8
  let window := if single then size else (1 <<< exponent) + (1 <<< exponent) / 8 * eighths
  let hasDictionary := littleEndian data (stop - sizeSize - idSize) idSize ≠ 0
  if descriptor / 8 % 2 = 1 ∨ hasDictionary ∨ (!single ∧ 31 < exponent) then none
  else some { window, contentSize, hasChecksum := descriptor / 4 % 2 = 1 }

/-- The three bytes before a block. -/
structure BlockHeader where
  last : Bool
  /-- 0 for content as it is, 1 for a run, 2 for compressed content. -/
  kind : Nat
  size : Nat

namespace BlockHeader

/-- The block header at index `start`. -/
def read (data : ByteArray) (start : Nat) : BlockHeader :=
  let n := littleEndian data start 3
  { last := n % 2 = 1, kind := n / 2 % 4, size := n / 8 }

/-- How many bytes the block takes up behind its header. -/
def stored (b : BlockHeader) : Nat := if b.kind = 1 then 1 else b.size

end BlockHeader

/-- The index behind the blocks from `position` on, if all of them are there and none is of an unknown kind. -/
def blocksEnd? (data : ByteArray) (position stop : Nat) : Option Nat :=
  if h : position + 3 ≤ stop then
    let b := BlockHeader.read data position
    let next := position + 3 + b.stored
    if b.kind = 3 ∨ stop < next then none
    else if b.last then some next
    else blocksEnd? data next stop
  else none
termination_by stop - position
decreasing_by omega

/-! ### Blocks -/

/-- A frame that is being decoded. -/
structure Frame where
  header : Header
  content : Content := {}
  /-- How many bytes of the content were handed out. -/
  handed : Nat := 0
  huffman : Option HuffmanTable := none
  tables : Option SequenceTables := none
  recent : RecentDistances := {}

namespace Frame

/-- How much content a block may give in `room` bytes of output.  A frame that is decoded as a whole keeps the literals
behind the largest regular block where there is room for them, so that the block must end before them. -/
def blockRoom (limit room : Nat) (literals : Literals) (whole : Bool) : Nat :=
  if whole ∧ !literals.inPlace ∧ limit + overrunBytes + literals.bytes.size + overrunBytes < room then
    limit + overrunBytes
  else room

/-- The frame with the content of the compressed block between `start` and `stop`. -/
def decodeBlock (f : Frame) (data : ByteArray) (start stop room : Nat) (whole : Bool) : Option Frame := do
  let limit := f.header.blockLimit
  if limit < stop - start then none
  else
    let literals ← Literals.read? data start stop (min limit room) f.huffman
    let sequences ← Sequences.read? data literals.stop stop f.tables f.recent
    let before := f.content
    let f := { f with content := {} }
    let most := before.size + blockRoom limit room literals whole
    let content ← before.execute most literals.bytes 0 sequences.items
    return { f with
      content, huffman := literals.table, tables := sequences.tables, recent := sequences.recent }

/-- The frame with the content of the block whose stored bytes begin at `start`. -/
def takeBlock (f : Frame) (data : ByteArray) (start : Nat) (b : BlockHeader) (room : Nat) (whole : Bool) :
    Option Frame :=
  match b.kind with
  | 0 => if room < b.size then none else some { f with content := f.content.append data start b.size }
  | 1 => if room < b.size then none else some { f with content := f.content.appendRun (byteAt data start) b.size }
  | 2 => f.decodeBlock data start (start + b.size) room whole
  | _ => none

/-- Whether the content so far may be all there is. -/
def hasAnnouncedSize (f : Frame) : Bool := f.header.contentSize.all (· = f.content.size)

/-- Whether the four bytes at index `start` are the checksum of the content. -/
def hasChecksumAt (f : Frame) (data : ByteArray) (start : Nat) : Bool :=
  (XxHash64.checksum f.content.bytes).toUInt32.toNat = littleEndian data start 4

/-- The content of the blocks between `position` and `stop`, for which there is room for `room` bytes. -/
def decodeBlocks (f : Frame) (data : ByteArray) (position stop room : Nat) : Option Frame :=
  if _h : position + 3 ≤ stop then
    let b := BlockHeader.read data position
    match f.takeBlock data (position + 3) b (room - f.content.size) true with
    | none => none
    | some f => if b.last then some f else decodeBlocks f data (position + 3 + b.stored) stop room
  else none
termination_by stop - position
decreasing_by omega

/-- The content of the frame with the given header between `start` and `stop`, decoded as a whole. -/
def decodeWhole (header : Header) (data : ByteArray) (start stop room : Nat) : Option ByteArray := do
  let blocks := start + Header.length (byteAt data (start + 4)).toNat
  let blocksStop := if header.hasChecksum then stop - 4 else stop
  let f ← decodeBlocks { header } data blocks blocksStop room
  if f.hasAnnouncedSize ∧ (!header.hasChecksum ∨ f.hasChecksumAt data blocksStop) then some f.content.bytes else none

/-- The index behind the frame with the given header at `start`, if all of it stands before `stop`. -/
def end? (header : Header) (data : ByteArray) (start stop : Nat) : Option Nat := do
  let next ← blocksEnd? data (start + Header.length (byteAt data (start + 4)).toNat) stop
  let next := if header.hasChecksum then next + 4 else next
  if stop < next then none else some next

end Frame

end ClassLedger.Zstd
