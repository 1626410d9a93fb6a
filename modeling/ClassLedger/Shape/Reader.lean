import ClassLedger.Payload.Packed
import ClassLedger.Record.Basic
import ClassLedger.Shape.Draft

/-!
# From records to shapes

A record of a known kind is read strictly: first its version is checked, then that every payload character is a byte,
then the fields from left to right, and last whether the payload breaks off.  A record of an unknown kind has the
unknown shape.
-/

namespace ClassLedger.Record

/-- Takes the fields of the payload from left to right; a payload that breaks off is refused after its last
complete field. -/
def takeFields {δ : Type} (r : Record) (take : Array String → δ → Field → Except InterpretError δ) (start : δ) :
    Except InterpretError δ := do
  let bytes ← Payload.unpack r.payload
  let (fields, broken) := Field.ofBytes bytes
  let draft ← fields.foldlM (take r.strings.toArray) start
  match broken with
  | some cause => throw (.malformedPayload cause)
  | none => return draft

def readMembers (r : Record) : Except InterpretError Members := do
  let draft ← r.takeFields (fun strings => MemberDraft.take strings "package") {}
  return draft.members

def readClass (r : Record) : Except InterpretError ClassShape := do
  let draft ← r.takeFields ClassDraft.take {}
  draft.finish

def readLambda (r : Record) : Except InterpretError (Option Member) :=
  r.takeFields takeLambda none

/-- Whether the first part of a version is at least 1. -/
def versionIsReadable (version : List Int32) : Bool :=
  match version with
  | [] => false
  | major :: _ => 1 ≤ major.toInt

/-- The shape that a record describes. -/
def interpret (r : Record) : Except InterpretError Shape :=
  if versionIsReadable r.version then
    match r.kindOf with
    | .ordinaryClass => do return .ordinaryClass (← r.readClass)
    | .fileFacade => do return .fileFacade (← r.readMembers)
    | .multiFilePart => do return .multiFilePart r.extraText (← r.readMembers)
    | .syntheticClass => do return .syntheticClass (← r.readLambda)
    | .multiFileFacade => return .multiFileFacade r.payload
    | .unknown tag => return .unknown tag
  else .error (.incompatibleVersion r.version)

end ClassLedger.Record
