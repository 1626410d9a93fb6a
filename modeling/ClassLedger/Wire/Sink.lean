import ClassLedger.Wire.Output
import ClassLedger.Wire.Source

/-!
# Writing to a byte sink

A sink takes bytes in fragments of its own choosing, after any number of interruptions, until its room is used up.
Then it reports a fault on every further call, or takes nothing, which counts as a fault as well.
-/

namespace ClassLedger.Wire

/-- The answer to one call of a sink. -/
inductive Uptake where
  | interrupted
  /-- How many of the offered bytes were taken. -/
  | taken (count : Nat)
  | failed (fault : Fault)

/-- A byte sink between two calls. -/
structure Sink where
  /-- The bytes taken so far. -/
  accepted : Array UInt8 := #[]
  /-- How many bytes it will still take, if that is bounded. -/
  room : Option Nat := none
  /-- What it reports without room; a sink without a report takes nothing. -/
  refusal : Option Fault := none
  /-- What it reports when it is asked to pass its bytes on. -/
  flushFault : Option Fault := none
  /-- How the calls are answered, counted from the first. -/
  pace : Nat → Pace
  /-- The number of calls answered so far. -/
  answered : Nat := 0
  /-- How often the current call was interrupted. -/
  interrupted : Nat := 0

namespace Sink

/-- One call that offers `bytes`. -/
def call (bytes : List UInt8) (s : Sink) : Uptake × Sink :=
  let pace := s.pace s.answered
  if s.interrupted < pace.interruptions then
    (.interrupted, { s with interrupted := s.interrupted + 1 })
  else
    let s := { s with answered := s.answered + 1, interrupted := 0 }
    match s.room, s.refusal with
    | some 0, some fault => (.failed fault, s)
    | room, _ =>
      let fragment := bytes.take (min pace.size (room.getD pace.size))
      (.taken fragment.length,
        { s with accepted := s.accepted ++ fragment, room := room.map (· - fragment.length) })

/-- How many more interruptions the current call will meet. -/
def pending (s : Sink) : Nat := (s.pace s.answered).interruptions - s.interrupted

theorem pending_call_lt {bytes : List UInt8} {s t : Sink} (h : s.call bytes = (.interrupted, t)) :
    t.pending < s.pending := by
  unfold call at h
  simp only at h
  split at h
  · obtain ⟨-, rfl⟩ := Prod.mk.inj h
    simp only [pending]
    omega
  · split at h <;> simp at h

/-- Calls until the sink answers; the answer is how many bytes it took or a fault. -/
def offer (bytes : List UInt8) (s : Sink) : Except Fault Nat × Sink :=
  match _h : s.call bytes with
  | (.interrupted, t) => offer bytes t
  | (.taken count, t) => (.ok count, t)
  | (.failed fault, t) => (.error fault, t)
termination_by s.pending
decreasing_by exact pending_call_lt _h

/-- Offers the bytes that are left until none is. -/
def deliver (context : String) (bytes : List UInt8) (s : Sink) : EStateM.Result EncodeError Sink Unit :=
  match bytes with
  | [] => .ok () s
  | b :: rest =>
    match s.offer (b :: rest) with
    | (.error fault, t) => .error (.transport context fault) t
    | (.ok 0, t) => .error (.transport context .nothingTaken) t
    | (.ok (count + 1), t) => deliver context (rest.drop count) t
termination_by bytes.length
decreasing_by simp only [List.length_drop, List.length_cons]; omega

instance : Output Sink where
  writeBytes bytes context := deliver context bytes

/-- Asks the sink to pass its bytes on. -/
def flush : Write Sink Unit := fun s =>
  match s.flushFault with
  | some fault => .error (.transport "flush" fault) s
  | none => .ok () s

end Sink

end ClassLedger.Wire
