/-!
# Consoles

The commands of this library print lines, read files and measure time through a console, so that they are the same
program wherever their output goes.
-/

namespace ClassLedger

/-- What a command may do in the monad `m`. -/
structure Console (m : Type → Type) where
  print : String → m Unit
  /-- The bytes of a file, unless it cannot be read. -/
  contents : String → m (Option (List UInt8))
  /-- The value of a computation, and the nanoseconds it took. -/
  timed : {α : Type} → (Unit → α) → m (α × Nat)

/-- The quotient of two numbers with a fixed number of decimal places, the last one rounded. -/
def decimalQuotient (places numerator denominator : Nat) : String :=
  let unit := Nat.pow 10 places
  let scaled := (2 * numerator * unit + denominator) / (2 * denominator)
  let fraction := toString (scaled % unit)
  toString (scaled / unit) ++ "." ++ String.ofList (List.replicate (places - fraction.length) '0') ++ fraction

/-- A time in milliseconds. -/
def durationText (nanoseconds : Nat) : String := decimalQuotient 3 nanoseconds 1000000 ++ "ms"

end ClassLedger
