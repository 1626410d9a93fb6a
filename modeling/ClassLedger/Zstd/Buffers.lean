import ClassLedger.Zstd.Frame

/-!
# Buffers of a decoder

Content waits in a buffer until it is asked for.  The buffer holds the window and two more blocks, or all of the
announced content if that is less.  It is kept for later frames, until it has been far too large for many of them.
-/

namespace ClassLedger.Zstd

/-- How many frames in a row may find buffers three times as large as they need. -/
def patience : Nat := 128

/-- The buffers of a decoder. -/
structure Buffers where
  input : Nat := 0
  output : Nat := 0
  /-- How many frames in a row found them too large. -/
  wasteful : Nat := 0

/-- The buffers for a frame that needs some of the given sizes. -/
def Buffers.fit (b : Buffers) (input output : Nat) : Buffers :=
  let wasteful := if 3 * (input + output) ≤ b.input + b.output then b.wasteful + 1 else 0
  if b.input < input ∨ b.output < output ∨ patience ≤ wasteful then { input, output, wasteful }
  else { b with wasteful }

/-- The buffers for a frame with the given window, block limit and announced size. -/
def Buffers.forFrame (b : Buffers) (window limit : Nat) (contentSize : Option Nat) : Buffers :=
  let ring := window + 2 * limit + 2 * overrunBytes
  b.fit (max limit 4) (match contentSize with
    | some size => min size ring
    | none => ring)

end ClassLedger.Zstd
