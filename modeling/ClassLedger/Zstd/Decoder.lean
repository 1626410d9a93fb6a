import ClassLedger.Zstd.Buffers

/-!
# Decoding frames as they arrive

Compressed data is a row of frames, at least one.  Skippable frames have no content.  The data arrives in portions,
and content is asked for in portions as well.  Each time, frames are decoded block by block until a block does not fit
into the rest of what is asked for, the portion of data is used up, or a frame ends, so that damage shows no later
than in the block that follows the content handed out.  A frame with an announced size that fits into what is asked
for is decoded as a whole if all of its data is at hand.
-/

namespace ClassLedger.Zstd

/-- The largest window that is accepted. -/
def windowBytes : Nat := 128 * 1024 * 1024 + 1

/-- The number of bytes in a portion of data. -/
def portionBytes : Nat := 131075

/-- Where a decoder stands. -/
inductive Stage where
  /-- Between two frames; `any` tells whether there was one already. -/
  | between (any : Bool)
  /-- Before a block. -/
  | block (f : Frame)
  /-- In a block of which `left` stored bytes are still to come. -/
  | body (f : Frame) (b : BlockHeader) (left : Nat)
  /-- Before the checksum of a frame. -/
  | checksum (f : Frame)
  /-- In a skippable frame that goes on to index `stop`. -/
  | skipping (stop : Nat)
  /-- Behind a frame whose content has perhaps not been handed out completely. -/
  | ending (f : Frame)

/-- A decoder between two requests for content. -/
structure Decoder where
  data : ByteArray
  /-- The index of what is decoded next. -/
  position : Nat := 0
  /-- How much of the data was taken over, which may include the first part of what is decoded next. -/
  taken : Nat := 0
  stage : Stage := .between false
  buffers : Buffers := {}

namespace Decoder

/-- The content that waits to be handed out, as its place in the content of the frame. -/
def waiting (d : Decoder) : Option (Frame × Nat) :=
  match d.stage with
  | .block f | .body f .. | .checksum f | .ending f => some (f, f.content.size - f.handed)
  | .between _ | .skipping _ => none

/-- The decoder with another state of its frame. -/
def setFrame (d : Decoder) (f : Frame) : Decoder :=
  { d with
    stage :=
      match d.stage with
      | .block _ => .block f
      | .body _ b left => .body f b left
      | .checksum _ => .checksum f
      | .ending _ => .ending f
      | .between any => .between any
      | .skipping stop => .skipping stop }

/-- Hands out waiting content onto `out`, up to `room` bytes in all. -/
def handOut (d : Decoder) (room : Nat) (out : ByteArray) : Decoder × ByteArray :=
  match d.waiting with
  | none => (d, out)
  | some (f, count) =>
    let count := min count (room - out.size)
    (d.setFrame { f with handed := f.handed + count }, f.content.bytes.copySlice f.handed out out.size count false)

/-- Whether content waits to be handed out. -/
def isWaiting (d : Decoder) : Bool := d.waiting.any fun (_, count) => 0 < count

/-- Takes over all data before index `stop`, without decoding it. -/
def absorb (d : Decoder) (stop : Nat) : Decoder := { d with taken := max d.taken stop }

/-- The room in the buffer for the next block, which starts over if the buffer cannot take a largest block any more
nor all of the announced content. -/
def prepare (d : Decoder) (f : Frame) : Frame × Nat :=
  let size := d.buffers.output
  let f :=
    if f.header.contentSize.all (size < ·) ∧ size < f.content.filled + f.header.blockLimit then
      { f with content := f.content.startOver }
    else f
  (f, size - f.content.filled)

/-- The stage behind a block.  After the last one, the content must have the announced size. -/
def afterBlock (f : Frame) (last : Bool) : Option Stage :=
  if !last then some (.block f)
  else if !f.hasAnnouncedSize then none
  else if f.header.hasChecksum then some (.checksum f)
  else some (.ending f)

/-- What one step of a decoder gives. -/
inductive Outcome where
  | broken
  /-- More data is needed, and the decoder stands where it stood. -/
  | starved (same : Decoder)
  /-- The content of a frame that was decoded as a whole. -/
  | whole (content : ByteArray) (next : Decoder)
  | continued (next : Decoder)

/-- The step into a frame that is not skippable, where `room` bytes of content are asked for and the data goes up to
`stop`. -/
def openContent (d : Decoder) (stop room : Nat) : Outcome :=
  let start := d.position
  let next := start + Header.length (byteAt d.data (start + 4)).toNat
  if stop < next then .starved d
  else
    match Header.read? d.data start with
    | none => .broken
    | some header =>
      let whole := if header.contentSize.any (· ≤ room) ∧ d.taken ≤ start then Frame.end? header d.data start stop
        else none
      match whole with
      | some last =>
        match Frame.decodeWhole header d.data start last room with
        | none => .broken
        | some content => .whole content { d with position := last, stage := .between true }
      | none =>
        let window := max header.window 1024
        if windowBytes < window then .broken
        else
          .continued { d with
            position := next
            stage := .block { header }
            buffers := d.buffers.forFrame window header.blockLimit header.contentSize }

/-- The step into the frame at the position. -/
def openFrame (d : Decoder) (stop room : Nat) : Outcome :=
  let start := d.position
  let magic := littleEndian d.data start 4
  if stop < start + 5 then .starved d
  else if magic / 16 = 0x184D2A5 then
    if stop < start + 8 then .starved d
    else
      let size := littleEndian d.data (start + 4) 4
      .continued { d with
        position := start + 8
        stage := .skipping (start + 8 + size)
        buffers := d.buffers.forFrame 1024 0 (some size) }
  else if magic = frameMagic then d.openContent stop room
  else .broken

/-- The step over a block header.  A block without stored bytes gives nothing. -/
def openBlock (d : Decoder) (f : Frame) (stop : Nat) : Outcome :=
  if stop < d.position + 3 then .starved d
  else
    let b := BlockHeader.read d.data d.position
    let d := { d with position := d.position + 3 }
    if b.kind = 3 ∨ f.header.blockLimit < b.stored then .broken
    else if 0 < b.stored then .continued { d with stage := .body f b b.stored }
    else if !b.last then .continued { d with stage := .block f }
    else .continued { d with stage := if f.header.hasChecksum then .checksum f else .ending f }

/-- The step over the stored bytes of a block, or over those that are there of a block of plain content.  It starts from
a decoder without its stage, which it puts back, so that nothing else holds the content when more is appended. -/
def takeBody (d : Decoder) (f : Frame) (b : BlockHeader) (left stop : Nat) : Outcome :=
  let piece := if b.kind = 0 then min left (stop - d.position) else left
  if piece = 0 ∨ stop < d.position + piece then .starved { d with stage := .body f b left }
  else
    let before := f.content.size
    let (f, room) := d.prepare f
    match f.takeBlock d.data d.position (if b.kind = 0 then { b with size := piece } else b) room false with
    | none => .broken
    | some f =>
      let d := { d with position := d.position + piece }
      if before + f.header.blockLimit < f.content.size then .broken
      else if piece < left then .continued { d with stage := .body f b (left - piece) }
      else
        match afterBlock f b.last with
        | none => .broken
        | some stage => .continued { d with stage }

/-- One step, after all waiting content was handed out. -/
def step (d : Decoder) (stop room : Nat) : Outcome :=
  match d.stage with
  | .between _ => d.openFrame stop room
  | .block f => d.openBlock f stop
  | .body f b left => { d with stage := .between true }.takeBody f b left stop
  | .checksum f =>
    if stop < d.position + 4 then .starved d
    else if f.hasChecksumAt d.data d.position then
      .continued { d with position := d.position + 4, stage := .ending f }
    else .broken
  | .skipping last =>
    if stop < last then .starved d
    else .continued { d with position := last, stage := .ending { header := .skippable } }
  | .ending _ => .continued { d with stage := .between true }

/-- Decodes onto `out` from the data before index `stop`, up to `room` bytes in all, until something calls for a stop.
Every step but the last two of a frame takes data, so `fuel` beyond their number is never used up. -/
def run (fuel : Nat) (d : Decoder) (stop room : Nat) (out : ByteArray) : Option (Decoder × ByteArray) :=
  let (d, out) := d.handOut room out
  if d.isWaiting then some (d.absorb d.position, out)
  else
    match fuel, d.stage with
    | 0, _ => some (d.absorb d.position, out)
    | _ + 1, .ending _ => some ({ d with stage := .between true }.absorb d.position, out)
    | fuel + 1, _ =>
      match d.step stop room with
      | .broken => none
      | .starved d => some (d.absorb stop, out)
      | .whole content d => some (d.absorb d.position, out ++ content)
      | .continued d => run fuel d stop room out

/-- Decodes from the data before index `stop`, up to `room` bytes. -/
def decode (d : Decoder) (stop room : Nat) : Option (Decoder × ByteArray) :=
  run (stop - d.position + 3) d stop room ByteArray.empty

/-- The end of the portion of data that holds the index `i`. -/
def portionEnd (d : Decoder) (i : Nat) : Nat := min d.data.size ((i / portionBytes + 1) * portionBytes)

/-- Takes portions of data until there is some content, up to `room` bytes, or until the data ends, which it may do
behind a frame only. -/
def fill (fuel : Nat) (d : Decoder) (room : Nat) : Option (Decoder × ByteArray) :=
  if d.data.size ≤ d.taken then
    match d.stage with
    | .between true => if d.data.size ≤ d.position then some (d, ByteArray.empty) else none
    | _ => none
  else
    match fuel, d.decode (d.portionEnd d.taken) room with
    | _, none => none
    | 0, some (d, out) => some (d, out)
    | fuel + 1, some (d, out) => if out.size = 0 then fill fuel d room else some (d, out)

/-- Hands out content, up to `room` bytes: first what waits, then what more data gives.  At the end there is none. -/
def read (d : Decoder) (room : Nat) : Option (Decoder × ByteArray) := do
  let (d, out) ← d.decode d.taken room
  if out.size = 0 then d.fill (d.data.size - d.taken + 1) room else return (d, out)

end Decoder

end ClassLedger.Zstd
