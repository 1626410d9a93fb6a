import ClassLedger.Text.Utf8
import Mathlib.Algebra.Group.Nat.Defs

/-!
# The order of UTF-8

Strings are ordered by their characters.  The order of their UTF-8 bytes is the same: a character of a higher number
has a higher first byte, or the same one and then as many bytes, and the base 64 digits of the number decide.
-/

namespace ClassLedger.Text

/-- The last `n` digits of a number to base 64 as continuation bytes. -/
def continuation (v : Nat) : Nat → List UInt8
  | 0 => []
  | n + 1 => .ofNat (v / 64 ^ n % 64 + 0x80) :: continuation v n

/-- The number of continuation bytes of a character. -/
def continuationCount (v : Nat) : Nat := if v < 0x80 then 0 else if v < 0x800 then 1 else if v < 0x10000 then 2 else 3

/-- The bits that mark a first byte before `n` continuation bytes. -/
def leadMark : Nat → Nat
  | 0 => 0
  | 1 => 0xC0
  | 2 => 0xE0
  | _ => 0xF0

def leadByte (v : Nat) : Nat := v / 64 ^ continuationCount v + leadMark (continuationCount v)

variable {a b v w : Nat} {x y : List UInt8} {c d : Char} {s t : String}

theorem div_lt_or_mod_lt (less : v < w) (k : Nat) : v / k < w / k ∨ v / k = w / k ∧ v % k < w % k := by
  rcases Nat.lt_or_eq_of_le (Nat.div_le_div_right (Nat.le_of_lt less)) with quotient | quotient
  · exact .inl quotient
  · right
    have hv := Nat.div_add_mod v k
    have hw := Nat.div_add_mod w k
    rw [quotient] at hv
    omega

theorem ofNat_cons_lt (bound : b < 256) (less : a < b ∨ a = b ∧ x < y) : UInt8.ofNat a :: x < UInt8.ofNat b :: y := by
  rw [List.cons_lt_cons_iff]
  rcases less with less | ⟨rfl, less⟩
  · left
    rw [UInt8.lt_iff_toNat_lt, UInt8.toNat_ofNat', UInt8.toNat_ofNat']
    omega
  · exact .inr ⟨rfl, less⟩

theorem continuation_append_lt {n : Nat} (less : v % 64 ^ n < w % 64 ^ n) (x y : List UInt8) :
    continuation v n ++ x < continuation w n ++ y := by
  induction n with
  | zero => omega
  | succ n ih =>
    rw [Nat.pow_succ, Nat.mod_mul, Nat.mod_mul] at less
    refine ofNat_cons_lt (by omega) ?_
    have rest : w % 64 ^ n < 64 ^ n := Nat.mod_lt _ (Nat.pow_pos (by decide))
    rcases Nat.lt_trichotomy (v / 64 ^ n % 64) (w / 64 ^ n % 64) with digit | digit | digit
    · left
      omega
    · rw [digit] at less ⊢
      exact .inr ⟨rfl, ih (by omega)⟩
    · -- the digit outweighs all digits after it
      have := Nat.mul_le_mul_left (64 ^ n) (Nat.succ_le_of_lt digit)
      rw [Nat.mul_succ] at this
      omega

theorem leadByte_cases (v : Nat) :
    v < 0x80 ∧ continuationCount v = 0 ∧ leadByte v = v ∨
    (0x80 ≤ v ∧ v < 0x800) ∧ continuationCount v = 1 ∧ leadByte v = v / 64 + 0xC0 ∨
    (0x800 ≤ v ∧ v < 0x10000) ∧ continuationCount v = 2 ∧ leadByte v = v / 4096 + 0xE0 ∨
    0x10000 ≤ v ∧ continuationCount v = 3 ∧ leadByte v = v / 262144 + 0xF0 := by
  unfold leadByte
  by_cases one : v < 0x80
  · have count : continuationCount v = 0 := if_pos one
    refine .inl ⟨one, count, ?_⟩
    rw [count, pow_zero, Nat.div_one]
    rfl
  by_cases two : v < 0x800
  · have count : continuationCount v = 1 := (if_neg one).trans (if_pos two)
    refine .inr (.inl ⟨⟨Nat.not_lt.1 one, two⟩, count, ?_⟩)
    rw [count]
    rfl
  by_cases three : v < 0x10000
  · have count : continuationCount v = 2 := ((if_neg one).trans (if_neg two)).trans (if_pos three)
    refine .inr (.inr (.inl ⟨⟨Nat.not_lt.1 two, three⟩, count, ?_⟩))
    rw [count]
    rfl
  · have count : continuationCount v = 3 := ((if_neg one).trans (if_neg two)).trans (if_neg three)
    refine .inr (.inr (.inr ⟨Nat.not_lt.1 three, count, ?_⟩))
    rw [count]
    rfl

/-- A longer character has a higher first byte. -/
theorem leadByte_lt_leadByte (longer : continuationCount v < continuationCount w) : leadByte v < leadByte w := by
  have := leadByte_cases v
  have := leadByte_cases w
  omega

theorem toNat_lt (c : Char) : c.toNat < 0x110000 := by
  rcases c.valid with low | ⟨-, high⟩
  · exact Nat.lt_trans low (by decide)
  · exact high

theorem leadByte_toNat_lt (c : Char) : leadByte c.toNat < 256 := by
  have := toNat_lt c
  have := leadByte_cases c.toNat
  omega

theorem utf8EncodeChar_eq (c : Char) :
    String.utf8EncodeChar c = .ofNat (leadByte c.toNat) :: continuation c.toNat (continuationCount c.toNat) := by
  have bound := toNat_lt c
  have value : c.val.toNat = c.toNat := rfl
  unfold String.utf8EncodeChar
  simp only [value]
  rcases leadByte_cases c.toNat with ⟨range, count, lead⟩ | ⟨range, count, lead⟩ | ⟨range, count, lead⟩ |
    ⟨range, count, lead⟩
  all_goals rw [count, lead]
  · rw [if_pos (by omega)]
    rfl
  · rw [if_neg (by omega), if_pos (by omega), Nat.mod_eq_of_lt (by omega : c.toNat / 64 < 32)]
    simp [continuation]
  · rw [if_neg (by omega), if_neg (by omega), if_pos (by omega), Nat.mod_eq_of_lt (by omega : c.toNat / 4096 < 16)]
    simp [continuation]
  · rw [if_neg (by omega), if_neg (by omega), if_neg (by omega),
      Nat.mod_eq_of_lt (by omega : c.toNat / 262144 < 8)]
    simp [continuation]

theorem utf8EncodeChar_append_lt (less : c < d) (x y : List UInt8) :
    String.utf8EncodeChar c ++ x < String.utf8EncodeChar d ++ y := by
  have less : c.toNat < d.toNat := less
  rw [utf8EncodeChar_eq, utf8EncodeChar_eq]
  refine ofNat_cons_lt (leadByte_toNat_lt d) ?_
  by_cases longer : continuationCount c.toNat < continuationCount d.toNat
  · exact .inl (leadByte_lt_leadByte longer)
  · -- both have as many bytes, so their digits stand at the same places
    have same : continuationCount c.toNat = continuationCount d.toNat := by
      have := leadByte_cases c.toNat
      have := leadByte_cases d.toNat
      omega
    unfold leadByte
    rw [same]
    rcases div_lt_or_mod_lt less (64 ^ continuationCount d.toNat) with digits | ⟨digits, rest⟩
    · exact .inl (Nat.add_lt_add_right digits _)
    · exact .inr ⟨by rw [digits], continuation_append_lt rest x y⟩

theorem flatMap_utf8EncodeChar_lt {l m : List Char} (less : l < m) :
    l.flatMap String.utf8EncodeChar < m.flatMap String.utf8EncodeChar := by
  induction l generalizing m with
  | nil =>
    cases m with
    | nil => exact absurd less (List.lt_irrefl _)
    | cons d m =>
      rw [List.flatMap_cons, utf8EncodeChar_eq]
      exact List.nil_lt_cons _ _
  | cons c l ih =>
    cases m with
    | nil => exact absurd less (List.not_lt_nil _)
    | cons d m =>
      rw [List.flatMap_cons, List.flatMap_cons]
      rcases List.cons_lt_cons_iff.1 less with first | ⟨rfl, rest⟩
      · exact utf8EncodeChar_append_lt first _ _
      · exact List.append_left_lt (ih rest)

theorem utf8_eq_flatMap (s : String) : utf8 s = s.toList.flatMap String.utf8EncodeChar := by
  unfold utf8
  rw [← String.utf8Encode_toList, List.utf8Encode, List.toList_data_toByteArray]

theorem utf8_lt (less : s < t) : utf8 s < utf8 t := by
  rw [utf8_eq_flatMap, utf8_eq_flatMap]
  exact flatMap_utf8EncodeChar_lt less

end ClassLedger.Text
