import ClassLedger.Text.Utf8
import ClassLedger.Wire.Input
import ClassLedger.Wire.Word

/-!
# Reading from a byte source

A source hands out its bytes in fragments of its own choosing.  A call may be interrupted any number of times before
it is answered and is tried again each time.  After the last byte the source either has ended or reports a fault on
every further call.  A read that cannot be completed has used up what the source had.
-/

namespace ClassLedger.Wire

/-- How a transport answers one call: how often it interrupts it first, and how many bytes it moves at most. -/
structure Pace where
  interruptions : Nat
  size : Nat
  size_pos : 0 < size

/-- What a source does once its bytes are handed out. -/
inductive Ending where
  | clean
  | failing (fault : Fault)
  deriving DecidableEq

/-- The answer to one call of a source. -/
inductive Supply where
  | interrupted
  /-- Some bytes, or none at the end of the source. -/
  | delivered (bytes : List UInt8)
  | failed (fault : Fault)

/-- A byte source between two calls. -/
structure Source where
  /-- The bytes that are not handed out yet. -/
  unread : List UInt8
  ending : Ending := .clean
  /-- How the calls are answered, counted from the first. -/
  pace : Nat → Pace
  /-- The number of calls answered so far. -/
  answered : Nat := 0
  /-- How often the current call was interrupted. -/
  interrupted : Nat := 0
  /-- The number of bytes handed out. -/
  position : Nat := 0

namespace Source

/-- One call for at most `want` bytes. -/
def call (want : Nat) (s : Source) : Supply × Source :=
  let pace := s.pace s.answered
  if s.interrupted < pace.interruptions then
    (.interrupted, { s with interrupted := s.interrupted + 1 })
  else
    let s := { s with answered := s.answered + 1, interrupted := 0 }
    match s.unread, s.ending with
    | [], .failing fault => (.failed fault, s)
    | unread, _ =>
      let (bytes, rest) := unread.splitAt (min want pace.size)
      (.delivered bytes, { s with unread := rest, position := s.position + bytes.length })

/-- How many more interruptions the current call will meet. -/
def pending (s : Source) : Nat := (s.pace s.answered).interruptions - s.interrupted

theorem pending_call_lt {want : Nat} {s t : Source} (h : s.call want = (.interrupted, t)) :
    t.pending < s.pending := by
  unfold call at h
  simp only at h
  split at h
  · obtain ⟨-, rfl⟩ := Prod.mk.inj h
    simp only [pending]
    omega
  · split at h <;> simp at h

/-- Calls until the source answers; the answer is the bytes or a fault. -/
def fetch (want : Nat) (s : Source) : Except Fault (List UInt8) × Source :=
  match _h : s.call want with
  | (.interrupted, t) => fetch want t
  | (.delivered bytes, t) => (.ok bytes, t)
  | (.failed fault, t) => (.error fault, t)
termination_by s.pending
decreasing_by exact pending_call_lt _h

/-- Calls until `want` more bytes are there, behind the bytes `got`; an early end gives the bytes there are. -/
def gather (want : Nat) (got : Array UInt8) (s : Source) : Except Fault (List UInt8) × Source :=
  if want = 0 then (.ok got.toList, s)
  else
    match s.fetch want with
    | (.error fault, t) => (.error fault, t)
    | (.ok [], t) => (.ok got.toList, t)
    | (.ok (b :: bytes), t) => gather (want - (b :: bytes).length) (got ++ b :: bytes) t
termination_by want
decreasing_by simp only [List.length_cons]; omega

/-- Reads exactly `count` bytes. -/
def readBytes (count : Nat) (context : String) : Read Source (List UInt8) := fun s =>
  match s.gather count #[] with
  | (.error fault, t) => .error (.ofFault context fault) t
  | (.ok bytes, t) => if bytes.length = count then .ok bytes t else .error (.endOfInput context) t

def readInt32 (context : String) : Read Source Int32 := do
  match ← readBytes 4 context with
  | [a, b, c, d] => return ofBigEndian a b c d
  | _ => throw (.endOfInput context)

def readText (length : Nat) (field : String) : Read Source String := do
  let bytes ← readBytes length field
  match Text.ofUtf8? bytes with
  | some s => return s
  | none => throw (.invalidText field)

instance : Input Source where
  readInt32 := readInt32
  readText := readText

end Source

end ClassLedger.Wire
