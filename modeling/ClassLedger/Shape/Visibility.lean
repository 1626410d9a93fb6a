/-!
# Visibility

Bits 1 to 3 of a flag word say from where a declaration can be used.  Two of the eight values are reserved.
-/

namespace ClassLedger

/-- From where a declaration can be used. -/
inductive Visibility where
  /-- Internal: from its module. -/
  | moduleWide
  /-- Private: from its class or file. -/
  | classOnly
  /-- Protected: from its class and the subclasses. -/
  | subclasses
  /-- Public. -/
  | everywhere
  /-- Private to one instance. -/
  | instanceOnly
  /-- Local: from the enclosing block. -/
  | blockOnly
  deriving DecidableEq

namespace Visibility

/-- The value of the visibility bits. -/
def bits : Visibility → UInt32
  | moduleWide => 0
  | classOnly => 1
  | subclasses => 2
  | everywhere => 3
  | instanceOnly => 4
  | blockOnly => 5

/-- The visibility in a flag word, unless its value is reserved. -/
def ofFlags? (flags : Int32) : Option Visibility :=
  match flags.toUInt32.toNat / 2 % 8 with
  | 0 => some moduleWide
  | 1 => some classOnly
  | 2 => some subclasses
  | 3 => some everywhere
  | 4 => some instanceOnly
  | 5 => some blockOnly
  | _ => none

/-- The flag word with its visibility bits replaced. -/
def apply (v : Visibility) (flags : Int32) : Int32 :=
  ((flags.toUInt32 &&& (0xFFFFFFF1 : UInt32)) ||| (v.bits <<< (1 : UInt32))).toInt32

/-- Whether the declaration can be used outside its module. -/
def isExported : Visibility → Bool
  | everywhere | subclasses => true
  | moduleWide | classOnly | instanceOnly | blockOnly => false

end Visibility

end ClassLedger
