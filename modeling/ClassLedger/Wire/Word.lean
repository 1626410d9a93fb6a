/-!
# Four-byte words

Fixed-width integers are signed, 32 bits wide and written with the most significant byte first.
-/

namespace ClassLedger.Wire

/-- The four bytes of an integer, the most significant first. -/
def bigEndian (value : Int32) : List UInt8 :=
  let n := value.toUInt32.toNat
  [UInt8.ofNat (n / 16777216), UInt8.ofNat (n / 65536), UInt8.ofNat (n / 256), UInt8.ofNat n]

/-- The integer with the given bytes, the most significant first. -/
def ofBigEndian (a b c d : UInt8) : Int32 :=
  (UInt32.ofNat (a.toNat * 16777216 + b.toNat * 65536 + c.toNat * 256 + d.toNat)).toInt32

@[simp]
theorem length_bigEndian (value : Int32) : (bigEndian value).length = 4 := rfl

/-- Reading the four bytes of an integer gives it back. -/
theorem ofBigEndian_bigEndian (value : Int32) :
    ∃ a b c d, bigEndian value = [a, b, c, d] ∧ ofBigEndian a b c d = value := by
  refine ⟨_, _, _, _, rfl, ?_⟩
  have h := value.toUInt32.toNat_lt
  have e : value.toUInt32.toNat / 16777216 % 256 * 16777216 + value.toUInt32.toNat / 65536 % 256 * 65536 +
      value.toUInt32.toNat / 256 % 256 * 256 + value.toUInt32.toNat % 256 = value.toUInt32.toNat := by omega
  simp only [ofBigEndian, UInt8.toNat_ofNat', Nat.reducePow] at e ⊢
  rw [e]
  simp

/-- Writing an integer that was read gives its four bytes back. -/
theorem bigEndian_ofBigEndian (a b c d : UInt8) : bigEndian (ofBigEndian a b c d) = [a, b, c, d] := by
  have ha := a.toNat_lt
  have hb := b.toNat_lt
  have hc := c.toNat_lt
  have hd := d.toNat_lt
  have e : (ofBigEndian a b c d).toUInt32.toNat =
      a.toNat * 16777216 + b.toNat * 65536 + c.toNat * 256 + d.toNat := by
    show (UInt32.ofNat _).toNat = _
    rw [UInt32.toNat_ofNat']
    omega
  simp only [bigEndian, e, List.cons.injEq, and_true, ← UInt8.toNat_inj, UInt8.toNat_ofNat']
  omega

end ClassLedger.Wire
