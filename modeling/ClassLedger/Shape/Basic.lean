import ClassLedger.Record.Kind
import ClassLedger.Shape.Visibility

/-!
# Shapes

A shape is what the fields of a record describe: a class, a group of top-level declarations, a lambda, or the facade
that joins several files.  Shapes with members have them in one container.
-/

namespace ClassLedger

/-- A function, a property or a type alias. -/
structure Member where
  name : String
  flags : Int32 := 0
  deriving DecidableEq

def Member.visibility? (m : Member) : Option Visibility := Visibility.ofFlags? m.flags

/-- The members of a class or a package, each kind in the order of declaration. -/
structure Members where
  functions : List Member := []
  properties : List Member := []
  typeAliases : List Member := []
  deriving DecidableEq

namespace Members

def empty : Members := {}

/-- All members: the functions, then the properties, then the type aliases. -/
def all (m : Members) : List Member := m.functions ++ m.properties ++ m.typeAliases

def size (m : Members) : Nat := m.functions.length + m.properties.length + m.typeAliases.length

def isEmpty (m : Members) : Bool :=
  m.functions.isEmpty && m.properties.isEmpty && m.typeAliases.isEmpty

/-- The first function with the given name. -/
def function? (m : Members) (name : String) : Option Member := m.functions.find? (·.name = name)

/-- The first property with the given name. -/
def property? (m : Members) (name : String) : Option Member := m.properties.find? (·.name = name)

/-- The members that can be used outside their module. -/
def exported (m : Members) : List Member :=
  m.all.filter fun x => x.visibility?.any Visibility.isExported

end Members

/-- A class with its members. -/
structure ClassShape where
  /-- The binary name, with slashes between the packages. -/
  name : String := ""
  flags : Int32 := 0
  supertypes : List String := []
  nestedClasses : List String := []
  /-- The flag words of the constructors. -/
  constructors : List Int32 := []
  members : Members := {}
  deriving DecidableEq

/-- What a record describes. -/
inductive Shape where
  | ordinaryClass (shape : ClassShape)
  | fileFacade (members : Members)
  /-- The function is there if the class is the body of a lambda. -/
  | syntheticClass (lambda : Option Member)
  | multiFileFacade (parts : List String)
  | multiFilePart (facade : String) (members : Members)
  /-- A record of a kind that is not understood. -/
  | unknown (tag : Int32)
  deriving DecidableEq

namespace Shape

/-- The kind of the records that describe this shape. -/
def kind : Shape → Kind
  | ordinaryClass _ => .ordinaryClass
  | fileFacade _ => .fileFacade
  | syntheticClass _ => .syntheticClass
  | multiFileFacade _ => .multiFileFacade
  | multiFilePart .. => .multiFilePart
  | unknown tag => .unknown tag

/-- The members, for shapes that can have some. -/
def members? : Shape → Option Members
  | ordinaryClass c => some c.members
  | fileFacade members => some members
  | multiFilePart _ members => some members
  | syntheticClass _ | multiFileFacade _ | unknown _ => none

end Shape

end ClassLedger
