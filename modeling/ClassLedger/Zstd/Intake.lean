import ClassLedger.Delivery
import ClassLedger.Zstd.Decoder

/-!
# Taking content into a growing buffer

The size of the content is not known for sure in advance, so it is collected in a buffer that grows: as long as it has
its first capacity, a small request finds out whether there is anything more before it grows, and requests get larger
only after content was there for all that was asked.  What is asked for decides how far a decoder goes.
-/

namespace ClassLedger.Zstd

/-- A buffer in which content is collected. -/
structure Intake where
  size : Nat := 0
  capacity : Nat
  /-- The capacity at first. -/
  initial : Nat
  /-- How much is asked for at most. -/
  most : Nat := 8192

namespace Intake

/-- The number of bytes in a small request. -/
def probeBytes : Nat := 32

/-- The empty buffer of a capacity. -/
def ofCapacity (capacity : Nat) : Intake := { capacity, initial := capacity }

/-- The buffer with room for `count` more bytes; it at least doubles when it grows. -/
def reserve (b : Intake) (count : Nat) : Intake :=
  if b.size + count ≤ b.capacity then b
  else { b with capacity := max (2 * b.capacity) (max (b.size + count) 8) }

/-- Whether the next request is a small one. -/
def isProbing (b : Intake) : Bool :=
  (b.size = 0 && b.capacity < probeBytes) || (b.size = b.capacity && b.capacity = b.initial)

/-- The buffer with room for the next request. -/
def ready (b : Intake) : Intake := if b.size = b.capacity then b.reserve probeBytes else b

/-- How much is asked for next. -/
def request (b : Intake) : Nat :=
  if b.isProbing then probeBytes else min (b.ready.capacity - b.ready.size) b.most

/-- The buffer with the `count` bytes that the request gave. -/
def receive (b : Intake) (count : Nat) : Intake :=
  if b.isProbing then { b.reserve count with size := b.size + count }
  else
    let asked := b.request
    { b.ready with
      size := b.size + count
      most := if b.most ≤ asked ∧ count = asked then 2 * b.most else b.most }

@[simp]
theorem size_receive (b : Intake) (count : Nat) : (b.receive count).size = b.size + count := by
  unfold receive
  split <;> rfl

end Intake

/-- The reason that is given for frames that cannot be decoded; the decoder does not tell one defect from another. -/
def failureText : String := "corrupted frames"

/-- Delivers the content that a decoder gives to the requests of a buffer, up to `limit` bytes in all. -/
def deliver (limit : Nat) (b : Intake) (d : Decoder) : Delivery :=
  if _full : limit ≤ b.size then .done
  else
    match d.read (min b.request (limit - b.size)) with
    | none => .broken failureText
    | some (d, out) =>
      if _some : 0 < out.size then
        .block out.data.toList fun _ => deliver limit (b.receive out.size) d
      else .done
termination_by limit - b.size
decreasing_by rw [Intake.size_receive]; omega

/-- The content of compressed frames, taken into a buffer of a capacity, up to `limit` bytes. -/
def inflate (capacity limit : Nat) (frames : List UInt8) : Delivery :=
  deliver limit (.ofCapacity capacity) { data := ⟨frames.toArray⟩ }

end ClassLedger.Zstd
