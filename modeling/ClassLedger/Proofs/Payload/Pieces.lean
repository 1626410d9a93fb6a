import ClassLedger.Proofs.Payload.Packing
import Mathlib.Algebra.Order.Floor.Div
import Mathlib.Data.String.Basic

/-!
# The pieces of packed bytes

A reader of records counts the pieces of a payload and the UTF-8 bytes of each piece, while packing counts characters.
A character that stands for a byte takes one or two bytes of UTF-8, so pieces of a bounded number of characters are
bounded for the reader too, and their number is bounded by the number of packed bytes.
-/

namespace ClassLedger.Payload

variable {size : Nat} {bytes : List UInt8} {piece : String} {pieces : List String}

theorem utf8Size_le_of_toNat_le {c : Char} (narrow : c.toNat ≤ 255) : c.utf8Size ≤ 2 := by
  have two : c.val ≤ 0x7ff := UInt32.le_iff_toNat_le.2 (Nat.le_trans narrow (by decide))
  by_cases one : c.val ≤ 0x7f
  · exact (if_pos one).trans_le (by decide)
  · exact ((if_neg one).trans (if_pos two)).le

theorem utf8Len_le_two_mul_length {cs : List Char} (narrow : ∀ c ∈ cs, c.toNat ≤ 255) :
    String.utf8Len cs ≤ 2 * cs.length := by
  induction cs with
  | nil => exact Nat.le_refl _
  | cons c rest ih =>
    obtain ⟨first, others⟩ := List.forall_mem_cons.1 narrow
    have := utf8Size_le_of_toNat_le first
    have := ih others
    rw [String.utf8Len_cons, List.length_cons]
    omega

/-- A piece that can be unpacked takes at most two bytes of UTF-8 for each character. -/
theorem utf8ByteSize_le_of_unpack_eq_ok (h : unpack pieces = .ok bytes) (hpiece : piece ∈ pieces) :
    piece.utf8ByteSize ≤ 2 * piece.length := by
  rw [← String.ofList_toList (s := piece), String.utf8ByteSize_ofList, String.length_ofList]
  refine utf8Len_le_two_mul_length fun c hc => ?_
  exact (unpack_eq_ok_iff.1 h).1 c (List.mem_flatMap.2 ⟨piece, hpiece, hc⟩)

theorem length_pack_le_iff {count : Nat} :
    (pack size bytes).length ≤ count ↔ bytes.length ≤ max size 1 * count := by
  induction bytes using pack.induct size generalizing count with
  | case1 =>
    rw [pack]
    simp
  | case2 b rest ih =>
    rw [pack, List.length_cons, List.length_cons]
    cases count with
    | zero => simp
    | succ count =>
      -- one piece of the count is for the first bytes, the others are for the bytes behind them
      rw [Nat.add_le_add_iff_right, ih, List.length_drop, Nat.mul_succ]
      omega

theorem length_pack (size : Nat) (bytes : List UInt8) : (pack size bytes).length = bytes.length ⌈/⌉ max size 1 := by
  have pos : 0 < max size 1 := Nat.lt_of_lt_of_le Nat.one_pos (Nat.le_max_right size 1)
  refine eq_of_forall_ge_iff fun count => ?_
  rw [length_pack_le_iff, ceilDiv_le_iff_le_mul pos]

/-- Every piece has a character, and at most as many as asked for. -/
theorem length_of_mem_pack (h : piece ∈ pack size bytes) : 0 < piece.length ∧ piece.length ≤ max size 1 := by
  induction bytes using pack.induct size with
  | case1 =>
    rw [pack] at h
    cases h
  | case2 b rest ih =>
    rw [pack] at h
    rcases List.mem_cons.1 h with rfl | h
    · rw [String.length_ofList, List.length_map, List.length_take, List.length_cons]
      omega
    · exact ih h

/-- Every piece but the last one has as many characters as asked for. -/
theorem length_of_mem_dropLast_pack (h : piece ∈ (pack size bytes).dropLast) : piece.length = max size 1 := by
  induction bytes using pack.induct size with
  | case1 =>
    rw [pack] at h
    cases h
  | case2 b rest ih =>
    rw [pack] at h
    by_cases last : pack size (rest.drop (size - 1)) = []
    · rw [last] at h
      cases h
    · rw [List.dropLast_cons_of_ne_nil last] at h
      rcases List.mem_cons.1 h with rfl | h
      · -- more pieces follow only where bytes are left behind this one
        have left : rest.drop (size - 1) ≠ [] := by
          intro none
          rw [none, pack] at last
          exact last rfl
        have : size - 1 < rest.length := Nat.lt_of_not_le (mt List.drop_eq_nil_iff.2 left)
        rw [String.length_ofList, List.length_map, List.length_take, List.length_cons]
        omega
      · exact ih h

end ClassLedger.Payload
