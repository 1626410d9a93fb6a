import ClassLedger.Zstd.Literals

/-!
# Sequences of a block

Behind the literals, a block lists sequences: some literals, then a match, which copies a number of bytes from a given
distance back.  Lengths and distances are coded by three entropy tables and extra bits.  The three latest distances
have short codes of their own.
-/

namespace ClassLedger.Zstd

/-- The base value and the number of extra bits of each code. -/
abbrev CodeTable := Array (Nat × Nat)

/-- Codes of literal lengths. -/
def literalLengthCodes : CodeTable :=
  (Array.range 16).map (·, 0) ++
    #[(16, 1), (18, 1), (20, 1), (22, 1), (24, 2), (28, 2), (32, 3), (40, 3), (48, 4), (64, 6), (128, 7), (256, 8),
      (512, 9), (1024, 10), (2048, 11), (4096, 12), (8192, 13), (16384, 14), (32768, 15), (65536, 16)]

/-- Codes of match lengths. -/
def matchLengthCodes : CodeTable :=
  (Array.range 32).map (· + 3, 0) ++
    #[(35, 1), (37, 1), (39, 1), (41, 1), (43, 2), (47, 2), (51, 3), (59, 3), (67, 4), (83, 4), (99, 5), (131, 7),
      (259, 8), (515, 9), (1027, 10), (2051, 11), (4099, 12), (8195, 13), (16387, 14), (32771, 15), (65539, 16)]

/-- The table of literal lengths in blocks that do not describe one. -/
def defaultLiteralLengths : FseTable :=
  .ofShares 6 [4, 3, 2, 2, 2, 2, 2, 2, 2, 2, 2, 2, 2, 1, 1, 1, 2, 2, 2, 2, 2, 2, 2, 2, 2, 3, 2, 1, 1, 1, 1, 1,
    -1, -1, -1, -1]

/-- The table of match lengths in blocks that do not describe one. -/
def defaultMatchLengths : FseTable :=
  .ofShares 6 ([1, 4, 3, 2, 2, 2, 2, 2, 2] ++ List.replicate 37 1 ++ List.replicate 7 (-1))

/-- The table of distance codes in blocks that do not describe one. -/
def defaultDistances : FseTable :=
  .ofShares 5 ([1, 1, 1, 1, 1, 1, 2, 2, 2] ++ List.replicate 15 1 ++ List.replicate 5 (-1))

/-- The three tables of a block with sequences. -/
structure SequenceTables where
  literalLengths : FseTable
  distances : FseTable
  matchLengths : FseTable

/-- The three latest distances, the last one first. -/
structure RecentDistances where
  first : Nat := 1
  second : Nat := 4
  third : Nat := 8

/-- A sequence: how many literals, then how many bytes from how far back. -/
structure Sequence where
  literals : Nat
  length : Nat
  distance : Nat

/-- The sequences of a block, and what later blocks may use. -/
structure Sequences where
  items : List Sequence
  tables : Option SequenceTables
  recent : RecentDistances

namespace Sequences

/-- Reads the number of sequences in the bytes from `start` to before `stop`, and the index behind it. -/
def readCount? (data : ByteArray) (start stop : Nat) : Option (Nat × Nat) :=
  let b := (byteAt data start).toNat
  let (count, size) : Nat × Nat :=
    if b < 128 then (b, 1)
    else if b < 255 then ((b - 128) * 256 + (byteAt data (start + 1)).toNat, 2)
    else (littleEndian data (start + 1) 2 + 0x7F00, 3)
  if stop < start + size then none else some (count, start + size)

/-- Reads a table in one of four modes: the default one, one that gives one code only, one with a description, or the
one of the block before.  The result is the table and the index behind its description. -/
def readTable? (data : ByteArray) (start stop mode codes maxLog : Nat) (default : FseTable)
    (before : Option FseTable) : Option (FseTable × Nat) :=
  match mode with
  | 0 => some (default, start)
  | 1 =>
    let code := (byteAt data start).toNat
    if stop ≤ start ∨ codes ≤ code then none else some (.constant code, start + 1)
  | 2 => FseTable.read? data start stop (fun _ => codes) maxLog
  | _ => before.map (·, start)

/-- Takes the extra bits of a code. -/
def takeCode (table : CodeTable) (code : Nat) (s : BitStack) : Option (Nat × BitStack) := do
  let (base, bits) := table.getD code (0, 0)
  let (extra, s) ← s.take? bits
  return (base + extra, s)

/-- The distance with the given number in `value`, and the latest distances after it.  Numbers 1 to 3 stand for the
latest distances, moved on by one if there are no literals, where the last then stands for one less than the first. -/
def resolve (value literals : Nat) (recent : RecentDistances) : Nat × RecentDistances :=
  let number := if literals = 0 then value + 1 else value
  if 3 < value then (value - 3, { first := value - 3, second := recent.first, third := recent.second })
  else if number = 1 then (recent.first, recent)
  else if number = 2 then
    (recent.second, { first := recent.second, second := recent.first, third := recent.third })
  else
    let distance := if number = 3 then recent.third else recent.first - 1
    (distance, { first := distance, second := recent.first, third := recent.second })

/-- The next state of a table. -/
def nextState (t : FseTable) (i : Nat) (s : BitStack) : Option (Nat × BitStack) := do
  let state := t.state i
  let (extra, s) ← s.take? state.bits
  return (state.base + extra, s)

/-- Decodes `count` sequences from the given states onto `items`, the last one first; they must use up the stream. -/
def decode (t : SequenceTables) (count : Nat) (states : Nat × Nat × Nat) (s : BitStack)
    (recent : RecentDistances) (items : List Sequence) : Option (List Sequence × RecentDistances) :=
  match count with
  | 0 => if s.left = 0 then some (items.reverse, recent) else none
  | count + 1 => do
    let (ll, off, ml) := states
    let code := (t.distances.state off).symbol
    let (extra, s) ← s.take? code
    let (length, s) ← takeCode matchLengthCodes (t.matchLengths.state ml).symbol s
    let (literals, s) ← takeCode literalLengthCodes (t.literalLengths.state ll).symbol s
    let (distance, recent) := resolve ((1 <<< code) + extra) literals recent
    let items := { literals, length, distance } :: items
    if count = 0 then decode t 0 states s recent items
    else
      let (ll, s) ← nextState t.literalLengths ll s
      let (ml, s) ← nextState t.matchLengths ml s
      let (off, s) ← nextState t.distances off s
      decode t count (ll, off, ml) s recent items

/-- Reads the sequences in the bytes from `start` to before `stop`, with the tables and the latest distances of the
blocks before. -/
def read? (data : ByteArray) (start stop : Nat) (before : Option SequenceTables) (recent : RecentDistances) :
    Option Sequences := do
  if stop ≤ start then none
  let (count, modes) ← readCount? data start stop
  if count = 0 then
    if modes = stop then return { items := [], tables := before, recent } else none
  else if stop ≤ modes ∨ bitsAt data (8 * modes) 2 ≠ 0 then none
  else
    let mode (i : Nat) := bitsAt data (8 * modes + i) 2
    let (literalLengths, at1) ← readTable? data (modes + 1) stop (mode 6) 36 9 defaultLiteralLengths
      (before.map (·.literalLengths))
    let (distances, at2) ← readTable? data at1 stop (mode 4) 32 8 defaultDistances (before.map (·.distances))
    let (matchLengths, at3) ← readTable? data at2 stop (mode 2) 53 9 defaultMatchLengths
      (before.map (·.matchLengths))
    let tables : SequenceTables := { literalLengths, distances, matchLengths }
    let s ← BitStack.open? data at3 (stop - at3)
    let (ll, s) ← s.take? literalLengths.log
    let (off, s) ← s.take? distances.log
    let (ml, s) ← s.take? matchLengths.log
    let (items, recent) ← decode tables count (ll, off, ml) s recent []
    return { items, tables, recent }

end Sequences

end ClassLedger.Zstd
