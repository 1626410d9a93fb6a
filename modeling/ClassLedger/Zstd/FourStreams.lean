import ClassLedger.Zstd.Huffman

/-!
# Four Huffman streams

Many literals are coded in four streams, the first three of which hold the same number of bytes each.  Streams that
are long enough are decoded side by side in rounds of five look-ups, for as long as no stream can run out of input or
of room, and then one by one.  Side by side, a stream may read on into the bytes before its own, and it need not use
all of its bits; what is required is that it stays near its own bytes while the rounds last.  Short streams must be
used up exactly.
-/

namespace ClassLedger.Zstd

/-- One of four streams that are decoded side by side. -/
structure Lane where
  /-- The index of the first byte of the stream. -/
  start : Nat
  /-- The index of the eight bytes that are looked at. -/
  index : Nat
  /-- The number of bits used up of these. -/
  used : Nat
  out : ByteArray
  /-- How many bytes are to be decoded yet. -/
  left : Nat

namespace Lane

/-- The lane of the stream in the bytes from `start` to before `stop`. -/
def ofStream (data : ByteArray) (start stop count : Nat) : Lane :=
  let last := byteAt data (stop - 1)
  { start, index := stop - 8, used := if last = 0 then 0 else 8 - last.toNat.log2, out := ByteArray.empty,
    left := count }

/-- The bits of a lane in a register that may go down to `floor`. -/
def register (data : ByteArray) (floor : Nat) (l : Lane) : Register :=
  { data, floor, index := l.index, word := wordAt data l.index, used := l.used }

/-- One round: five look-ups, after which the bytes that are used up are left behind. -/
def round (t : HuffmanTable) (data : ByteArray) (l : Lane) : Lane :=
  let d := HuffmanTable.times 5 (if t.paired then t.pair else t.single)
    { register := l.register data 0, out := l.out, left := l.left }
  let used := d.register.used
  { l with index := l.index - used / 8, used := used % 8, out := d.out, left := d.left }

/-- Decodes the rest of a lane. -/
def finish? (t : HuffmanTable) (data : ByteArray) (floor : Nat) (l : Lane) : Option ByteArray :=
  if l.index + 8 < l.start then none
  else some (t.decode { register := l.register data floor, out := l.out, left := l.left }).out

end Lane

/-- Four lanes in the order of their streams. -/
structure Lanes where
  first : Lane
  second : Lane
  third : Lane
  fourth : Lane

namespace Lanes

/-- How many rounds are safe: each takes seven bytes of input at most, and gives five bytes or up to ten. -/
def safeRounds (t : HuffmanTable) (floor : Nat) (l : Lanes) : Nat :=
  let input := (l.first.index - floor) / 7
  let room :=
    if t.paired then min (min l.first.left l.second.left) (min l.third.left l.fourth.left) / 10
    else l.fourth.left / 5
  min input room

/-- Whether no lane has passed the one before it. -/
def inOrder (l : Lanes) : Bool :=
  l.first.index ≤ l.second.index && l.second.index ≤ l.third.index && l.third.index ≤ l.fourth.index

def round (t : HuffmanTable) (data : ByteArray) (l : Lanes) : Lanes :=
  { first := l.first.round t data, second := l.second.round t data, third := l.third.round t data,
    fourth := l.fourth.round t data }

/-- Runs rounds until the fourth lane has no more than `left` bytes to decode, and `count` rounds at most. -/
def runTo (t : HuffmanTable) (data : ByteArray) (left count : Nat) (l : Lanes) : Lanes :=
  match count with
  | 0 => l
  | count + 1 =>
    let l := l.round t data
    if left < l.fourth.left then runTo t data left count l else l

/-- Runs rounds while some are safe and the lanes are in order. -/
def run (t : HuffmanTable) (data : ByteArray) (floor fuel : Nat) (l : Lanes) : Lanes :=
  match fuel with
  | 0 => l
  | fuel + 1 =>
    let count := l.safeRounds t floor
    if count = 0 ∨ !l.inOrder then l
    else run t data floor fuel (l.runTo t data (l.fourth.left - 5 * count) count)

/-- Decodes the rest of the lanes one by one. -/
def finish? (t : HuffmanTable) (data : ByteArray) (floor : Nat) (l : Lanes) : Option ByteArray := do
  let first ← l.first.finish? t data floor
  let second ← l.second.finish? t data floor
  let third ← l.third.finish? t data floor
  let fourth ← l.fourth.finish? t data floor
  return first ++ second ++ third ++ fourth

end Lanes

/-- Where four streams stand, and how many bytes each of them gives. -/
structure FourStreams where
  start1 : Nat
  start2 : Nat
  start3 : Nat
  start4 : Nat
  stop : Nat
  share : Nat
  rest : Nat

namespace FourStreams

/-- The four streams between `start` and `stop`, behind the three two-byte sizes of the first three, that give `count`
bytes. -/
def read? (data : ByteArray) (start stop count : Nat) : Option FourStreams :=
  let start1 := start + 6
  let start2 := start1 + littleEndian data start 2
  let start3 := start2 + littleEndian data (start + 2) 2
  let start4 := start3 + littleEndian data (start + 4) 2
  let share := (count + 3) / 4
  if stop < start + 10 ∨ stop < start4 ∨ count < 3 * share then none
  else some { start1, start2, start3, start4, stop, share, rest := count - 3 * share }

/-- Decodes the streams one after the other. -/
def decode? (s : FourStreams) (t : HuffmanTable) (data : ByteArray) : Option ByteArray := do
  let out ← t.decodeStream? data s.start1 (s.start2 - s.start1) s.share ByteArray.empty
  let out ← t.decodeStream? data s.start2 (s.start3 - s.start2) s.share out
  let out ← t.decodeStream? data s.start3 (s.start4 - s.start3) s.share out
  t.decodeStream? data s.start4 (s.stop - s.start4) s.rest out

/-- The lanes of the streams, if each stream has eight bytes at least and the last one gives some. -/
def lanes? (s : FourStreams) (data : ByteArray) : Option Lanes :=
  if s.start1 + 8 ≤ s.start2 ∧ s.start2 + 8 ≤ s.start3 ∧ s.start3 + 8 ≤ s.start4 ∧ s.start4 + 8 ≤ s.stop ∧
      0 < s.rest then
    some
      { first := .ofStream data s.start1 s.start2 s.share, second := .ofStream data s.start2 s.start3 s.share,
        third := .ofStream data s.start3 s.start4 s.share, fourth := .ofStream data s.start4 s.stop s.rest }
  else none

end FourStreams

/-- Decodes `count` bytes, at least six, from the four streams between `start` and `stop`. -/
def HuffmanTable.decodeFour? (t : HuffmanTable) (data : ByteArray) (start stop count : Nat) : Option ByteArray := do
  let streams ← FourStreams.read? data start stop count
  match if t.log = 11 then streams.lanes? data else none with
  | some lanes => (lanes.run t data start count).finish? t data start
  | none => streams.decode? t data

end ClassLedger.Zstd
