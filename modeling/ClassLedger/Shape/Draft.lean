import ClassLedger.Payload.Field
import ClassLedger.Shape.Basic

/-!
# Shapes while their payload is read

A draft takes the fields of a payload one after the other.  Member flags apply to the member declared last, whatever
fields of the class stand in between, except that the class name leaves no member for them to apply to.
-/

namespace ClassLedger

/-- The kinds of members. -/
inductive MemberKind where
  | function
  | property
  | typeAlias
  deriving DecidableEq

/-- The members declared so far. -/
structure MemberDraft where
  /-- The members with their kinds, the last one first. -/
  declared : List (MemberKind × Member) := []
  /-- Whether flags may still be given for the last one. -/
  accepting : Bool := false

namespace MemberDraft

def declare (d : MemberDraft) (kind : MemberKind) (name : String) : MemberDraft where
  declared := (kind, { name }) :: d.declared
  accepting := true

/-- Sets the flags of the member declared last. -/
def setFlags (d : MemberDraft) (flags : Int32) : Except InterpretError MemberDraft :=
  match d.declared, d.accepting with
  | (kind, member) :: before, true => .ok { d with declared := (kind, { member with flags }) :: before }
  | _, _ => .error .orphanFlags

/-- Leaves no member for further flags to apply to. -/
def close (d : MemberDraft) : MemberDraft := { d with accepting := false }

/-- Takes a field that belongs to the members of a shape called `shape`. -/
def take (strings : Array String) (shape : String) (d : MemberDraft) (f : Field) :
    Except InterpretError MemberDraft :=
  match Tag.ofNumber? f.tag with
  | some .function => do return d.declare .function (← f.string strings)
  | some .property => do return d.declare .property (← f.string strings)
  | some .typeAlias => do return d.declare .typeAlias (← f.string strings)
  | some .memberFlags => do
    let flags ← f.flags
    d.setFlags flags
  | some _ => .error (.unexpectedField f.tag shape)
  | none => .error (.unknownTag f.tag)

/-- The members of one kind in the order of declaration. -/
def ofKind (d : MemberDraft) (kind : MemberKind) : List Member :=
  (d.declared.reverse.filter (·.1 = kind)).map (·.2)

def members (d : MemberDraft) : Members where
  functions := d.ofKind .function
  properties := d.ofKind .property
  typeAliases := d.ofKind .typeAlias

end MemberDraft

/-- A class whose payload has been read in part; the lists have the last element first. -/
structure ClassDraft where
  name : Option String := none
  flags : Int32 := 0
  supertypes : List String := []
  nestedClasses : List String := []
  constructors : List Int32 := []
  members : MemberDraft := {}

namespace ClassDraft

def take (strings : Array String) (d : ClassDraft) (f : Field) : Except InterpretError ClassDraft :=
  match Tag.ofNumber? f.tag with
  | some .className =>
    if d.name.isSome then .error .duplicateClassName
    else do return { d with name := some (← f.string strings), members := d.members.close }
  | some .classFlags => do return { d with flags := ← f.flags }
  | some .supertype => do return { d with supertypes := (← f.string strings) :: d.supertypes }
  | some .nestedClass => do return { d with nestedClasses := (← f.string strings) :: d.nestedClasses }
  | some .constructor => do return { d with constructors := (← f.flags) :: d.constructors }
  | _ => do return { d with members := ← d.members.take strings "class" f }

/-- The finished class, which must have a name. -/
def finish (d : ClassDraft) : Except InterpretError ClassShape :=
  match d.name with
  | none => .error .missingClassName
  | some name => .ok {
      name
      flags := d.flags
      supertypes := d.supertypes.reverse
      nestedClasses := d.nestedClasses.reverse
      constructors := d.constructors.reverse
      members := d.members.members }

end ClassDraft

/-- Takes a field of a synthetic class, which has one function at most. -/
def takeLambda (strings : Array String) (lambda : Option Member) (f : Field) :
    Except InterpretError (Option Member) :=
  match Tag.ofNumber? f.tag with
  | some .function =>
    if lambda.isSome then .error .multipleLambdas
    else do return some { name := ← f.string strings }
  | some .memberFlags => do
    let flags ← f.flags
    match lambda with
    | some member => return some { member with flags }
    | none => throw .orphanFlags
  | some _ => .error (.unexpectedField f.tag "synthetic class")
  | none => .error (.unknownTag f.tag)

end ClassLedger
