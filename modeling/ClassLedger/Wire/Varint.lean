import ClassLedger.Wire.Slice

/-!
# Variable-length integers

A number is written in base 128 with the least significant digit first, one digit a byte, and the top bit set in every
byte but the last.  Writing uses as few digits as the number has; reading also accepts leading zero digits, up to ten
bytes in all, and refuses what does not fit 64 bits.
-/

namespace ClassLedger.Wire

/-- The shortest form of a number. -/
def varint (n : Nat) : List UInt8 :=
  if n < 128 then [UInt8.ofNat n]
  else UInt8.ofNat (n % 128 + 128) :: varint (n / 128)
termination_by n

/-- Reads the digits from the one that counts `weight` times, with `left` bytes to go and the digits before it worth
`sum`. -/
def Slice.readDigits (context : String) (left weight sum : Nat) : Read Slice UInt64 :=
  match left with
  | 0 => throw .varintTooLong
  | left + 1 => do
    let byte ← readByte context
    let digit := byte.toNat % 128
    if 18446744073709551616 ≤ digit * weight then throw .varintOverflow
    else if byte < 128 then return UInt64.ofNat (sum + digit * weight)
    else readDigits context left (weight * 128) (sum + digit * weight)

def Slice.readVarint (context : String) : Read Slice UInt64 :=
  readDigits context Limits.varintBytes 1 0

namespace Slice

theorem length_lt_of_readByte {context : String} {s t : Slice} {b : UInt8}
    (h : readByte context s = .ok b t) : t.rest.length < s.rest.length := by
  unfold readByte at h
  split at h
  · simp at h
  · rename_i hs
    obtain ⟨-, rfl⟩ := EStateM.Result.ok.inj h
    simp [hs]

theorem length_lt_of_readDigits {context : String} {left weight sum : Nat} {s t : Slice} {n : UInt64}
    (h : readDigits context left weight sum s = .ok n t) : t.rest.length < s.rest.length := by
  induction left generalizing weight sum s with
  | zero => cases h
  | succ left ih =>
    simp only [readDigits, bind, EStateM.bind] at h
    split at h
    · rename_i b u hb
      have := length_lt_of_readByte hb
      split at h
      · cases h
      · split at h
        · obtain ⟨-, rfl⟩ := EStateM.Result.ok.inj h
          exact this
        · have := ih h
          omega
    · simp at h

end Slice

end ClassLedger.Wire
