import ClassLedger.Error

/-!
# Bytes packed into strings

A payload travels as strings in which each character stands for the byte of its number, cut into pieces anywhere.
-/

namespace ClassLedger.Payload

/-- The characters of all pieces. -/
def chars (pieces : List String) : List Char := pieces.flatMap String.toList

/-- Whether a character stands for a byte. -/
def isByte (c : Char) : Bool := c.toNat < 256

/-- The bytes for which the characters of the pieces stand. -/
def unpack (pieces : List String) : Except InterpretError (List UInt8) :=
  match (chars pieces).find? (fun c => !isByte c) with
  | some c => .error (.characterOutOfRange c)
  | none => .ok ((chars pieces).map fun c => UInt8.ofNat c.toNat)

/-- The bytes in pieces of `size` characters, and fewer in the last one.  A size of 0 counts as 1. -/
def pack (size : Nat) (bytes : List UInt8) : List String :=
  match bytes with
  | [] => []
  | b :: rest =>
    let piece := (b :: rest).take (max size 1)
    String.ofList (piece.map fun b => Char.ofNat b.toNat) :: pack size (rest.drop (size - 1))
termination_by bytes.length
decreasing_by simp only [List.length_drop, List.length_cons]; omega

end ClassLedger.Payload
