import ClassLedger.Proofs.Wire.Varint
import ClassLedger.Wire.Buffer

/-!
# The shortest form of a number

A number has one form for every count of zero digits in front of it (`Leb128`).  The one without such digits is the only
shortest one, and it is the one that is written.  For 64 bits it takes at most ten bytes, so a writer that puts the
digits of a machine word into a row of ten bytes finds a place for each of them (`fillDigits_eq`).
-/

namespace ClassLedger.Wire

/-- The bytes are the digits of a number, the least significant first, with the top bit set in all but the last. -/
inductive Leb128 : Nat → List UInt8 → Prop where
  | last {b : UInt8} (ends : b < 128) : Leb128 b.toNat [b]
  | more {b : UInt8} {n : Nat} {rest : List UInt8} (goesOn : 128 ≤ b) (others : Leb128 n rest) :
    Leb128 (b.toNat % 128 + 128 * n) (b :: rest)

variable {n : Nat} {bytes : List UInt8}

theorem leb128_varint (n : Nat) : Leb128 n (varint n) := by
  induction n using varint.induct with
  | case1 n small =>
    have value : (UInt8.ofNat n).toNat = n := UInt8.toNat_ofNat_of_lt' (show n < 256 by omega)
    have ends : UInt8.ofNat n < 128 := by
      rw [UInt8.lt_iff_toNat_lt, value]
      exact small
    have form := Leb128.last ends
    rwa [value, ← varint_of_lt small] at form
  | case2 n large ih =>
    have value : (UInt8.ofNat (n % 128 + 128)).toNat = n % 128 + 128 :=
      UInt8.toNat_ofNat_of_lt' (show n % 128 + 128 < 256 by omega)
    have goesOn : 128 ≤ UInt8.ofNat (n % 128 + 128) := by
      rw [UInt8.le_iff_toNat_le, value]
      exact Nat.le_add_left 128 _
    have form := Leb128.more goesOn ih
    have parts : (n % 128 + 128) % 128 + 128 * (n / 128) = n := by omega
    rwa [value, parts, ← varint_of_ge (Nat.not_lt.1 large)] at form

theorem length_varint_pos (n : Nat) : 1 ≤ (varint n).length :=
  List.length_pos_iff.2 (varint_ne_nil n)

theorem Leb128.length_varint_le (h : Leb128 n bytes) : (varint n).length ≤ bytes.length := by
  induction h with
  | last ends =>
    rw [varint_of_lt (UInt8.lt_iff_toNat_lt.1 ends)]
    exact Nat.le_refl 1
  | @more b n rest goesOn others ih =>
    by_cases small : b.toNat % 128 + 128 * n < 128
    · rw [varint_of_lt small]
      exact Nat.le_add_left 1 _
    · have behind : (b.toNat % 128 + 128 * n) / 128 = n := by omega
      rw [varint_of_ge (Nat.not_lt.1 small), behind]
      exact Nat.succ_le_succ ih

/-- No other form is as short. -/
theorem Leb128.eq_varint (h : Leb128 n bytes) (short : bytes.length ≤ (varint n).length) : bytes = varint n := by
  induction h with
  | @last b ends => rw [varint_of_lt (UInt8.lt_iff_toNat_lt.1 ends), UInt8.ofNat_toNat]
  | @more b n rest goesOn others ih =>
    by_cases small : b.toNat % 128 + 128 * n < 128
    · -- the shortest form would be a single byte, but others stand behind this one
      have behind := others.length_varint_le
      have pos := length_varint_pos n
      rw [varint_of_lt small, List.length_cons, List.length_singleton] at short
      omega
    · have digit : (b.toNat % 128 + 128 * n) % 128 + 128 = b.toNat := by
        have top := UInt8.le_iff_toNat_le.1 goesOn
        have bound := b.toNat_lt
        have : (128 : UInt8).toNat = 128 := rfl
        omega
      have behind : (b.toNat % 128 + 128 * n) / 128 = n := by omega
      rw [varint_of_ge (Nat.not_lt.1 small), digit, behind, UInt8.ofNat_toNat] at short ⊢
      rw [ih (Nat.le_of_succ_le_succ short)]

/-! ### Digits of a machine word -/

/-- Puts the digits of a machine word into ten bytes from `place` on, and gives the bytes up to the last digit.  There
is no place behind the ten bytes. -/
def fillDigits (word : UInt64) (place : Nat) (bytes : Vector UInt8 Limits.varintBytes) : Option (List UInt8) :=
  if inside : place < Limits.varintBytes then
    let digit := (word &&& 0x7F).toUInt8
    let rest := word >>> 7
    let filled := bytes.set place (if rest = 0 then digit else digit ||| 0x80)
    if rest = 0 then some (filled.toList.take (place + 1)) else fillDigits rest (place + 1) filled
  else none
termination_by Limits.varintBytes - place

private theorem toNat_shiftRight (word : UInt64) : (word >>> 7).toNat = word.toNat / 128 := by
  rw [UInt64.toNat_shiftRight]
  exact Nat.shiftRight_eq_div_pow word.toNat 7

private theorem toNat_lowDigit (word : UInt64) : ((word &&& 0x7F).toUInt8).toNat = word.toNat % 128 := by
  have low : (word &&& 0x7F).toNat = word.toNat % 128 := by
    rw [UInt64.toNat_and]
    exact Nat.and_two_pow_sub_one_eq_mod word.toNat 7
  rw [UInt64.toNat_toUInt8, low]
  omega

private theorem toNat_or_top {b : UInt8} (small : b.toNat < 128) : (b ||| 0x80).toNat = b.toNat + 128 := by
  have sum := Nat.two_pow_add_eq_or_of_lt (show b.toNat < 2 ^ 7 from small) 1
  rw [UInt8.toNat_or, Nat.or_comm, Nat.add_comm]
  exact sum.symm

private theorem take_set {place : Nat} (inside : place < Limits.varintBytes) (bytes : Vector UInt8 Limits.varintBytes)
    (b : UInt8) : (bytes.set place b).toList.take (place + 1) = bytes.toList.take place ++ [b] := by
  have length : place < (bytes.toList.set place b).length := by simpa using inside
  rw [Vector.toList_set, ← List.take_append_getElem length, List.getElem_set_self, List.take_set_of_le (Nat.le_refl _)]

theorem fillDigits_eq {word : UInt64} {place : Nat} (room : place + (varint word.toNat).length ≤ Limits.varintBytes)
    (bytes : Vector UInt8 Limits.varintBytes) :
    fillDigits word place bytes = some (bytes.toList.take place ++ varint word.toNat) := by
  induction value : word.toNat using Nat.strongRecOn generalizing word place bytes with
  | ind n ih =>
    have pos := length_varint_pos word.toNat
    have inside : place < Limits.varintBytes := by omega
    have digit := toNat_lowDigit word
    have behind := toNat_shiftRight word
    unfold fillDigits
    rw [dif_pos inside]
    dsimp only
    by_cases small : n < 128
    · have last : word >>> 7 = 0 := by
        rw [← UInt64.toNat_inj, behind]
        exact Nat.div_eq_of_lt (value ▸ small)
      have byte : (word &&& 0x7F).toUInt8 = UInt8.ofNat n := by
        rw [← UInt8.toNat_inj, digit, UInt8.toNat_ofNat_of_lt' (show n < 256 by omega)]
        omega
      rw [if_pos last, if_pos last, take_set inside, byte, varint_of_lt small]
    · have more : word >>> 7 ≠ 0 := by
        rw [ne_eq, ← UInt64.toNat_inj, behind]
        show word.toNat / 128 ≠ 0
        omega
      have byte : (word &&& 0x7F).toUInt8 ||| 0x80 = UInt8.ofNat (n % 128 + 128) := by
        rw [← UInt8.toNat_inj, toNat_or_top (by omega), digit, value,
          UInt8.toNat_ofNat_of_lt' (show n % 128 + 128 < 256 by omega)]
      rw [value, varint_of_ge (Nat.not_lt.1 small), List.length_cons] at room
      rw [if_neg more, if_neg more,
        ih (n / 128) (by omega) (by rw [behind, value]; omega) _ (by rw [behind, value]), take_set inside, byte,
        varint_of_ge (Nat.not_lt.1 small), List.append_assoc, List.singleton_append]

end ClassLedger.Wire
