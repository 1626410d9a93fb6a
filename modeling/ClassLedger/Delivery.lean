/-!
# Deliveries

A decoder hands out its content block by block and works out a block only when it is asked for.  A delivery ends
cleanly or breaks.
-/

namespace ClassLedger

/-- The content that a decoder is about to hand out. -/
inductive Delivery where
  /-- There is nothing more. -/
  | done
  /-- The rest cannot be decoded, for a reason. -/
  | broken (message : String)
  | block (bytes : List UInt8) (next : Unit → Delivery)

namespace Delivery

/-- Takes bytes onto `got` until there are `limit` of them or the delivery ends; fails if it breaks before that. -/
def takeOnto (limit : Nat) (got : Array UInt8) : Delivery → Except String (List UInt8)
  | done => .ok got.toList
  | broken message => .error message
  | block bytes next =>
    let got := got ++ bytes.take (limit - got.size)
    if limit ≤ got.size then .ok got.toList else takeOnto limit got (next ())

/-- The first `limit` bytes of a delivery, or all if there are fewer. -/
def take (limit : Nat) (d : Delivery) : Except String (List UInt8) := d.takeOnto limit #[]

end Delivery

end ClassLedger
