import ClassLedger.Proofs.Wire.Reading
import ClassLedger.Wire.Varint

/-!
# Reading variable-length integers back

Every number that fits 64 bits is read back from its shortest form, which has ten bytes at most, whatever stands
behind it.
-/

namespace ClassLedger.Wire

variable {n : Nat}

theorem varint_of_lt (h : n < 128) : varint n = [UInt8.ofNat n] := by
  rw [varint, if_pos h]

theorem varint_of_ge (h : 128 ≤ n) : varint n = UInt8.ofNat (n % 128 + 128) :: varint (n / 128) := by
  rw [varint, if_neg (Nat.not_lt.2 h)]

theorem varint_ne_nil (n : Nat) : varint n ≠ [] := by
  by_cases h : n < 128
  · rw [varint_of_lt h]
    exact List.cons_ne_nil _ _
  · rw [varint_of_ge (Nat.not_lt.1 h)]
    exact List.cons_ne_nil _ _

private theorem length_varint_le_succ {most : Nat} (h : (varint (n / 128)).length ≤ most) :
    (varint n).length ≤ most + 1 := by
  by_cases last : n < 128
  · rw [varint_of_lt last, List.length_singleton]
    omega
  · rw [varint_of_ge (Nat.not_lt.1 last), List.length_cons]
    omega

theorem length_varint_le (h : n < UInt64.size) : (varint n).length ≤ Limits.varintBytes := by
  -- Nine digits to the base of 128 are 63 bits, so the tenth one is the last.
  have last : n / 128 / 128 / 128 / 128 / 128 / 128 / 128 / 128 / 128 < 128 := by
    unfold UInt64.size at h
    omega
  iterate 9 apply length_varint_le_succ
  rw [varint_of_lt last]
  exact Nat.le_refl 1

namespace Slice

variable {s t : Slice} {context : String}

theorem readByte_of_over (context : String) {b : UInt8} {bytes : List UInt8} (path : s.Over (b :: bytes) t) :
    ∃ u, readByte context s = .ok b u ∧ u.Over bytes t := by
  obtain ⟨u, first, rest⟩ := over_append_iff.1 (show s.Over ([b] ++ bytes) t from path)
  refine ⟨u, ?_, rest⟩
  unfold readByte
  rw [first.1, List.singleton_append, ← show u.position = s.position + 1 from first.2]

/-- The digits of `n` are read where they count less than `2 ^ 64` and enough bytes may follow. -/
theorem readDigits_of_over {left weight sum : Nat} (path : s.Over (varint n) t) (room : (varint n).length ≤ left)
    (fits : n * weight < UInt64.size) :
    readDigits context left weight sum s = .ok (UInt64.ofNat (sum + n * weight)) t := by
  unfold UInt64.size at fits
  induction left generalizing n weight sum s with
  | zero => exact absurd (List.eq_nil_of_length_eq_zero (Nat.le_zero.1 room)) (varint_ne_nil n)
  | succ left ih =>
    by_cases last : n < 128
    · rw [varint_of_lt last] at path
      obtain ⟨u, byte, rest⟩ := readByte_of_over context path
      obtain rfl := over_nil_iff.1 rest
      have value : (UInt8.ofNat n).toNat = n := UInt8.toNat_ofNat_of_lt (show n < 256 by omega)
      have digit : n % 128 = n := Nat.mod_eq_of_lt last
      have top : UInt8.ofNat n < 128 := UInt8.lt_iff_toNat_lt.2 (by rw [value]; exact last)
      unfold readDigits
      rw [bind_of_eq_ok byte]
      simp only [value, digit]
      rw [if_neg (Nat.not_le.2 fits), if_pos top]
      rfl
    · rw [varint_of_ge (Nat.not_lt.1 last)] at path room
      obtain ⟨u, byte, rest⟩ := readByte_of_over context path
      have value : (UInt8.ofNat (n % 128 + 128)).toNat = n % 128 + 128 :=
        UInt8.toNat_ofNat_of_lt (show n % 128 + 128 < 256 by omega)
      have digit : (n % 128 + 128) % 128 = n % 128 := by omega
      have top : ¬ UInt8.ofNat (n % 128 + 128) < 128 := by
        rw [UInt8.lt_iff_toNat_lt, value]
        exact Nat.not_lt.2 (Nat.le_add_left _ _)
      have parts : n % 128 * weight + n / 128 * (weight * 128) = n * weight := by
        rw [Nat.mul_comm weight, ← Nat.mul_assoc, ← Nat.add_mul]
        congr 1
        omega
      unfold readDigits
      rw [bind_of_eq_ok byte]
      simp only [value, digit]
      rw [if_neg (by omega), if_neg top, ih rest (Nat.le_of_succ_le_succ room) (by omega), Nat.add_assoc, parts]

theorem readVarint_of_over (path : s.Over (varint n) t) (fits : n < UInt64.size) :
    readVarint context s = .ok (UInt64.ofNat n) t := by
  have read : readVarint context s = .ok (UInt64.ofNat (0 + n * 1)) t :=
    readDigits_of_over path (length_varint_le fits) (by rwa [Nat.mul_one])
  rwa [Nat.zero_add, Nat.mul_one] at read

end Slice

end ClassLedger.Wire
