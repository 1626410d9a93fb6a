import ClassLedger.Zstd.Bits

/-!
# Finite state entropy tables

A table gives to each state a symbol, and the next state as a base plus a few bits of the stream.  It is described by
the share of each symbol in the states.  A share of -1 stands for a single state that starts over.
-/

namespace ClassLedger.Zstd

/-- One state of a table. -/
structure FseState where
  symbol : Nat
  /-- The number of bits that choose among the next states. -/
  bits : Nat
  /-- The first of the next states. -/
  base : Nat

/-- A table with two to the power of `log` states. -/
structure FseTable where
  log : Nat
  states : Array FseState

namespace FseTable

/-- The table in which every step gives one symbol. -/
def constant (symbol : Nat) : FseTable := { log := 0, states := #[⟨symbol, 0, 0⟩] }

def state (t : FseTable) (i : Nat) : FseState := t.states.getD i ⟨0, 0, 0⟩

/-- The states in the order in which symbols are spread over them. -/
def spreadOrder (size high : Nat) : List Nat :=
  let step := size / 2 + size / 8 + 3
  ((List.range size).map fun k => k * step % size).filter (· < high)

/-- The symbol of each state: symbols with a share of -1 take the last states, the others are spread over the rest. -/
def spread (size : Nat) (shares : List Int) : Array Nat :=
  let rare := (shares.zipIdx.filter (·.1 = -1)).map (·.2)
  let common := shares.zipIdx.flatMap fun (share, symbol) => List.replicate share.toNat symbol
  let high := size - rare.length
  let symbols := (Array.replicate size 0)
  let symbols := (rare.zipIdx).foldl (fun a (symbol, i) => a.setIfInBounds (size - 1 - i) symbol) symbols
  ((spreadOrder size high).zip common).foldl (fun a (place, symbol) => a.setIfInBounds place symbol) symbols

/-- The table with the given shares.  The states of a symbol are numbered from its share on, and the number tells how
many bits reach the next state. -/
def ofShares (log : Nat) (shares : List Int) : FseTable :=
  let size := 1 <<< log
  let numbers := (shares.map fun share => if share = -1 then 1 else share.toNat).toArray
  let (states, _) := (spread size shares).foldl
    (fun (states, numbers) symbol =>
      let number := numbers.getD symbol 1
      let bits := log - number.log2
      (states.push ⟨symbol, bits, (number <<< bits) - size⟩, numbers.setIfInBounds symbol (number + 1)))
    ((#[] : Array FseState), numbers)
  { log, states }

end FseTable

/-! ### Descriptions -/

/-- A place in the description of a table.  Its bits are read from words of four bytes, and no word reaches beyond the
description, or beyond eight bytes if it is shorter, with zeros behind it.  At the end the word stays where it is, and
bits beyond it are taken from its start once more. -/
structure ShareReader where
  data : ByteArray
  /-- The index behind the description. -/
  stop : Nat
  /-- The index beyond which no word reaches. -/
  limit : Nat
  index : Nat
  /-- The number of bits of the word that are used up. -/
  used : Nat

namespace ShareReader

/-- The byte at an index, and 0 behind the description. -/
def byte (s : ShareReader) (i : Nat) : Nat := if i < s.stop then (byteAt s.data i).toNat else 0

/-- The bits of the word that are left. -/
def word (s : ShareReader) : Nat :=
  (s.byte s.index + 256 * s.byte (s.index + 1) + 65536 * s.byte (s.index + 2) + 16777216 * s.byte (s.index + 3)) >>>
    s.used

/-- The next `count` bits. -/
def peek (count : Nat) (s : ShareReader) : Nat := s.word % (1 <<< count)

def skip (count : Nat) (s : ShareReader) : ShareReader := { s with used := s.used + count }

/-- Moves the word on by the bytes that are used up. -/
def settle (s : ShareReader) : ShareReader :=
  if s.index + 7 ≤ s.limit ∨ s.index + s.used / 8 + 4 ≤ s.limit then
    { s with index := s.index + s.used / 8, used := s.used % 8 }
  else { s with index := s.limit - 4, used := (s.used - 8 * (s.limit - 4 - s.index)) % 32 }

/-- Moves the word on by three bytes of ones. -/
def passThree (s : ShareReader) : ShareReader :=
  if s.index + 7 ≤ s.limit then { s with index := s.index + 3 }
  else { s with index := s.limit - 4, used := (s.used + 8 * (s.index + 7 - s.limit)) % 32 }

/-- How many of the lowest `most` bits are ones before the first zero. -/
def leadingOnes (most n : Nat) : Nat :=
  match most with
  | 0 => 0
  | most + 1 => if n % 2 = 1 then leadingOnes most (n / 2) + 1 else 0

/-- Reads how many further symbols have no share: two bits at a time, going on after three.  `fuel` bounds how often a
whole word of ones is passed. -/
def zeros (fuel : Nat) (s : ShareReader) (count : Nat) : Nat × ShareReader :=
  let threes := leadingOnes 31 s.word / 2
  match fuel with
  | fuel + 1 =>
    if 12 ≤ threes then zeros fuel s.passThree (count + 36)
    else (count + 3 * threes + s.word >>> (2 * threes) % 4, s.skip (2 * threes + 2))
  | 0 => (count, s)

/-- Reads a share of at most the `remaining` states but one. -/
def share (s : ShareReader) (remaining : Nat) : Int × ShareReader :=
  let half := 1 <<< remaining.log2
  let short := 2 * half - 1 - remaining
  let low := s.peek remaining.log2
  let wide := s.peek (remaining.log2 + 1)
  if low < short then ((low : Int) - 1, s.skip remaining.log2)
  else (((if half ≤ wide then wide - short else wide : Nat) : Int) - 1, s.skip (remaining.log2 + 1))

/-- Reads the shares of at most `most` symbols onto `shares`, the last one first, until the `remaining` states but one
are given away.  The result is the place behind the last share.  `room` bounds how many shares are still read. -/
def shares (most room : Nat) (s : ShareReader) (remaining : Nat) (before : List Int) :
    Option (List Int × ShareReader) :=
  match room with
  | 0 => none
  | room + 1 =>
    let (share, s) := s.share remaining
    let before := share :: before
    let remaining := remaining - share.natAbs
    if remaining ≤ 1 then
      if remaining = 1 ∧ s.used ≤ 32 then some (before.reverse, s) else none
    else if most ≤ before.length then none
    else
      let s := s.settle
      if share ≠ 0 then shares most room s remaining before
      else
        let (count, s) := s.zeros s.limit 0
        if most ≤ before.length + count then none
        else shares most room s.settle remaining (List.replicate count 0 ++ before)

end ShareReader

/-- Reads the description of a table in the bytes from `start` to before `stop`, where `symbols` tells how many
symbols a table of each size may have.  The result is the table and the index of the byte behind the description. -/
def FseTable.read? (data : ByteArray) (start stop : Nat) (symbols : Nat → Nat) (maxLog : Nat) :
    Option (FseTable × Nat) := do
  let s : ShareReader := { data, stop, limit := max stop (start + 8), index := start, used := 0 }
  let log := s.peek 4 + 5
  let most := symbols log
  if maxLog < log then none
  else
    let (shares, s) ← (s.skip 4).shares most most ((1 <<< log) + 1) []
    let after := s.index + (s.used + 7) / 8
    if stop < after then none else return (.ofShares log shares, after)

end ClassLedger.Zstd
