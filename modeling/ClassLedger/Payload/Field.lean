import ClassLedger.Error
import ClassLedger.Wire.Varint

/-!
# Fields of a declaration payload

A payload is a sequence of fields, each a tag and a value written as variable-length integers.  The bytes are read
completely before any field is looked at: the result is the list of the complete fields, and the error that broke the
sequence off, if one did.
-/

namespace ClassLedger

/-- The meaning of a field.  Names stand in a string table, and the value of such a field is an index into it. -/
inductive Tag where
  | className
  | classFlags
  | supertype
  | nestedClass
  | constructor
  | function
  | property
  | typeAlias
  /-- The flags of the member declared last. -/
  | memberFlags
  deriving DecidableEq

namespace Tag

def number : Tag → UInt64
  | className => 1
  | classFlags => 2
  | supertype => 3
  | nestedClass => 4
  | constructor => 5
  | function => 6
  | property => 7
  | typeAlias => 8
  | memberFlags => 9

/-- The tag with the given number. -/
def ofNumber? (n : UInt64) : Option Tag :=
  match n.toNat with
  | 1 => some className
  | 2 => some classFlags
  | 3 => some supertype
  | 4 => some nestedClass
  | 5 => some constructor
  | 6 => some function
  | 7 => some property
  | 8 => some typeAlias
  | 9 => some memberFlags
  | _ => none

end Tag

/-- A tag number, which need not be known, and its value. -/
structure Field where
  tag : UInt64
  value : UInt64
  deriving DecidableEq

namespace Field

open Wire

/-- The value as a flag word. -/
def flags (f : Field) : Except InterpretError Int32 :=
  if f.value.toNat < 4294967296 then .ok f.value.toUInt32.toInt32 else .error (.flagsOverflow f.value)

/-- The string that the value refers to. -/
def string (f : Field) (strings : Array String) : Except InterpretError String :=
  match strings[f.value.toNat]? with
  | some s => .ok s
  | none => .error (.stringIndexOutOfBounds f.value strings.size)

def read : Read Slice Field := do
  let tag ← Slice.readVarint "payload tag"
  let value ← Slice.readVarint "payload value"
  return { tag, value }

theorem length_lt_of_read {s t : Slice} {f : Field} (h : read s = .ok f t) :
    t.rest.length < s.rest.length := by
  simp only [read, Slice.readVarint, bind, EStateM.bind] at h
  split at h
  · rename_i h₁
    split at h
    · rename_i h₂
      obtain ⟨-, rfl⟩ := EStateM.Result.ok.inj h
      have := Slice.length_lt_of_readDigits h₁
      have := Slice.length_lt_of_readDigits h₂
      omega
    · simp at h
  · simp at h

/-- Reads fields onto `before`, the fields read so far with the last one first. -/
def readAll (before : List Field) (s : Slice) : List Field × Option DecodeError :=
  if s.isEmpty then (before.reverse, none)
  else
    match _h : read s with
    | .ok f t => readAll (f :: before) t
    | .error e _ => (before.reverse, some e)
termination_by s.rest.length
decreasing_by exact length_lt_of_read _h

/-- The complete fields of a payload, and the error that breaks it off. -/
def ofBytes (bytes : List UInt8) : List Field × Option DecodeError :=
  readAll [] (.ofList bytes)

end Field

end ClassLedger
