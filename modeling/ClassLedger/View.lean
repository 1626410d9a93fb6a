import ClassLedger.Record.Builder
import ClassLedger.Record.Codec
import ClassLedger.Shape.Reader

/-!
# The declaration view of a record

The shape of a record is worked out when it is first asked for, by whatever interpreter is at hand, and the outcome is
kept with that copy of the record.  An interpreter that fails or crashes gives the outcome that there is no shape; the
failure goes to the log and nowhere else.
-/

namespace ClassLedger

/-- What a crashing interpreter leaves behind. -/
inductive CrashReport where
  | text (message : String)
  /-- A value that is no text. -/
  | other
  deriving DecidableEq

def CrashReport.message : CrashReport → String
  | text message => message
  | other => "non-string panic payload"

/-- How a call of an interpreter ends. -/
inductive Attempt where
  | returned (result : Except InterpretError Shape)
  | crashed (report : CrashReport)

/-- The result of a call, where a crash is one more error. -/
def Attempt.result : Attempt → Except InterpretError Shape
  | returned result => result
  | crashed report => .error (.crashed report.message)

/-- A way to work out the shape of a record. -/
abbrev Interpreter := Record → Attempt

/-- The interpreter of this library. -/
def Interpreter.standard : Interpreter := fun r => .returned r.interpret

/-- A log entry about a record whose interpretation failed. -/
structure LogEvent where
  /-- The kind of the record. -/
  kind : Int32
  error : InterpretError
  deriving DecidableEq

namespace LogEvent

/-- A crash is a warning, any other failure a detail for debugging. -/
def isWarning (e : LogEvent) : Bool :=
  match e.error with
  | .crashed _ => true
  | _ => false

def level (e : LogEvent) : String := if e.isWarning then "WARN" else "DEBUG"

def message (e : LogEvent) : String :=
  if e.isWarning then "metadata interpreter panicked" else "metadata interpretation failed"

end LogEvent

/-- One copy of a record, with the outcome of its interpretation once there is one. -/
structure Observation where
  record : Record
  /-- The shape if the interpretation succeeded. -/
  outcome? : Option (Option Shape) := none

/-- A value got from a copy of a record: what it took and what it left. -/
structure Observed (α : Type) where
  value : α
  /-- How often an interpreter was called. -/
  calls : Nat := 0
  events : List LogEvent := []
  after : Observation

def Observed.map {α β : Type} (f : α → β) (o : Observed α) : Observed β :=
  { o with value := f o.value }

namespace Observation

/-- Copies are compared by their records, whatever is known of them. -/
instance : BEq Observation := ⟨fun o o' => o.record = o'.record⟩

/-- The bytes of the record. -/
def encode (o : Observation) : Except EncodeError (List UInt8) := o.record.encode

def isInterpreted (o : Observation) : Bool := o.outcome?.isSome

/-- The shape of the record, worked out by `interpreter` unless there is an outcome. -/
def shapeBy (interpreter : Interpreter) (o : Observation) : Observed (Option Shape) :=
  match o.outcome? with
  | some outcome => { value := outcome, after := o }
  | none =>
    match (interpreter o.record).result with
    | .ok shape => { value := some shape, calls := 1, after := { o with outcome? := some (some shape) } }
    | .error error => {
        value := none
        calls := 1
        events := [{ kind := o.record.kind, error }]
        after := { o with outcome? := some none } }

def shape (o : Observation) : Observed (Option Shape) := o.shapeBy .standard

/-- The members of the record's shape, if it has a shape and the shape can have members. -/
def members (o : Observation) : Observed (Option Members) := o.shape.map (·.bind Shape.members?)

/-- Another copy of the same record, not interpreted yet. -/
def copy (o : Observation) : Observation := { record := o.record }

/-- A revised copy, not interpreted yet. -/
def revise (o : Observation) (edits : List Record.Edit) : Observation := { record := o.record.revise edits }

end Observation

end ClassLedger
