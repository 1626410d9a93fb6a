import ClassLedger.Record.Basic

/-!
# Nodes of the dependency graph

The graph pairs the nodes of two builds before it compares them.  Only nodes of one family are paired, whatever they
hold, and a family shares one bucket.
-/

namespace ClassLedger

/-- The families of nodes. -/
inductive NodeFamily where
  | record
  | text
  | number
  deriving DecidableEq

/-- The number under which the nodes of a family are grouped. -/
def NodeFamily.bucket : NodeFamily → Nat
  | record => 0
  | text => 1
  | number => 2

/-- A type whose values are nodes of one family. -/
class Node (α : Type) where
  family : NodeFamily

instance : Node Record := ⟨.record⟩

instance : Node String := ⟨.text⟩

instance : Node Int32 := ⟨.number⟩

namespace Node

variable {α β : Type}

/-- The bucket of a node. -/
def bucket [Node α] (_ : α) : Nat := (family α).bucket

/-- Whether two nodes may be paired. -/
def isSame [Node α] [Node β] (_ : α) (_ : β) : Bool := family α = family β

end Node

end ClassLedger
