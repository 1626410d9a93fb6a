import ClassLedger.Zstd.Sequences

/-!
# Content of a frame

The content of a frame is written into a buffer that may be shorter than the content.  When the buffer cannot take
another block, writing starts over from its beginning.  A match may reach back to where the present turn through the
buffer began, and into the turn before it; there it finds the bytes that stand in the buffer by now.
-/

namespace ClassLedger.Zstd

/-- The content of a frame so far. -/
structure Content where
  bytes : ByteArray := ByteArray.empty
  /-- The length of the content when the present turn through the buffer began. -/
  turn : Nat := 0
  /-- The length of the content when the turn before it began. -/
  turnBefore : Nat := 0

namespace Content

def size (c : Content) : Nat := c.bytes.size

/-- How much of the buffer the present turn has filled. -/
def filled (c : Content) : Nat := c.size - c.turn

/-- Starts over from the beginning of the buffer. -/
def startOver (c : Content) : Content := { c with turn := c.size, turnBefore := c.turn }

/-- Appends `count` bytes of `data` from index `i`. -/
def append (c : Content) (data : ByteArray) (i count : Nat) : Content :=
  { c with bytes := data.copySlice i c.bytes c.bytes.size count false }

/-- Appends `count` times the same byte. -/
def appendRun (c : Content) (byte : UInt8) (count : Nat) : Content :=
  { c with bytes := c.bytes ++ ByteArray.mk (Array.replicate count byte) }

/-- Appends bytes of `out` itself, one by one from index `i`, so that a copy may run into what it has written. -/
def copyBack (out : ByteArray) (i count : Nat) : ByteArray :=
  match count with
  | 0 => out
  | count + 1 => copyBack (out.push (byteAt out i)) (i + 1) count

/-- Appends `count` bytes of the turn before, from index `i`.  Where the present turn has filled the same place of the
buffer, up to `size` bytes of content, its bytes stand there. -/
def copyOlder (turn turnBefore size : Nat) (out : ByteArray) (i count : Nat) : ByteArray :=
  match count with
  | 0 => out
  | count + 1 =>
    let place := turn + (i - turnBefore)
    copyOlder turn turnBefore size (out.push (byteAt out (if place < size then place else i))) (i + 1) count

/-- Appends `count` bytes from `distance` bytes back. -/
def copyMatch (c : Content) (distance count : Nat) : Option Content :=
  let size := c.size
  if distance = 0 ∨ size < c.turnBefore + distance then none
  else if c.turn + distance ≤ size then some { c with bytes := copyBack c.bytes (size - distance) count }
  else
    let older := min count (c.turn + distance - size)
    let bytes := copyOlder c.turn c.turnBefore size c.bytes (size - distance) older
    some { c with bytes := copyBack bytes c.turn (count - older) }

/-- Appends the content of a block: each sequence takes its literals, then copies its match.  The literals that are
left come last.  The content grows to `most` bytes at most. -/
def execute (most : Nat) (literals : ByteArray) (used : Nat) (c : Content) : List Sequence → Option Content
  | [] =>
    let left := literals.size - used
    if most < c.size + left then none else some (c.append literals used left)
  | q :: rest =>
    if literals.size < used + q.literals ∨ most < c.size + q.literals + q.length then none
    else
      match (c.append literals used q.literals).copyMatch q.distance q.length with
      | some c => execute most literals (used + q.literals) c rest
      | none => none

end Content

end ClassLedger.Zstd
