import ClassLedger.Payload.Packed

/-!
# Packed bytes are unpacked again

Cutting bytes into pieces of characters and putting the characters together again gives the same bytes, whatever the
size of the pieces.
-/

namespace ClassLedger.Payload

private theorem toNat_char (b : UInt8) : (Char.ofNat b.toNat).toNat = b.toNat := by
  have small := b.toNat_lt
  unfold Char.ofNat
  rw [dif_pos (.inl (by omega))]
  rfl

theorem chars_cons (piece : String) (pieces : List String) :
    chars (piece :: pieces) = piece.toList ++ chars pieces := by
  unfold chars
  rw [List.flatMap_cons]

theorem chars_append (pieces more : List String) : chars (pieces ++ more) = chars pieces ++ chars more :=
  List.flatMap_append

theorem find?_chars_eq_none_iff {pieces : List String} :
    (chars pieces).find? (fun c => 255 < c.toNat) = none ↔ ∀ c ∈ chars pieces, c.toNat ≤ 255 := by
  simp

private theorem not_isByte : (fun c => !isByte c) = fun c => decide (255 < c.toNat) := by
  funext c
  rw [Bool.eq_iff_iff, Bool.not_eq_true', isByte, decide_eq_false_iff_not, decide_eq_true_iff]
  omega

theorem unpack_eq_error_iff {pieces : List String} {e : InterpretError} : unpack pieces = .error e ↔
    ∃ c, (chars pieces).find? (fun c => 255 < c.toNat) = some c ∧ e = .characterOutOfRange c := by
  unfold unpack
  rw [not_isByte]
  cases (chars pieces).find? (fun c => 255 < c.toNat) <;> simp [eq_comm]

theorem unpack_eq_ok_iff {pieces : List String} {bytes : List UInt8} : unpack pieces = .ok bytes ↔
    (∀ c ∈ chars pieces, c.toNat ≤ 255) ∧ bytes = (chars pieces).map fun c => UInt8.ofNat c.toNat := by
  unfold unpack
  rw [not_isByte, ← find?_chars_eq_none_iff]
  cases (chars pieces).find? (fun c => 255 < c.toNat) <;> simp [eq_comm]

theorem unpack_append_of_eq_ok {pieces more : List String} {bytes : List UInt8} (h : unpack pieces = .ok bytes) :
    unpack (pieces ++ more) = (unpack more).map (bytes ++ ·) := by
  obtain ⟨narrow, rfl⟩ := unpack_eq_ok_iff.1 h
  cases behind : unpack more with
  | ok others =>
    obtain ⟨narrow', rfl⟩ := unpack_eq_ok_iff.1 behind
    refine unpack_eq_ok_iff.2 ⟨?_, ?_⟩
    · rw [chars_append]
      exact List.forall_mem_append.2 ⟨narrow, narrow'⟩
    · rw [chars_append, List.map_append]
  | error e =>
    obtain ⟨c, wide, rfl⟩ := unpack_eq_error_iff.1 behind
    refine unpack_eq_error_iff.2 ⟨c, ?_, rfl⟩
    rw [chars_append, List.find?_append, find?_chars_eq_none_iff.2 narrow, Option.none_or, wide]

theorem chars_pack (size : Nat) (bytes : List UInt8) :
    chars (pack size bytes) = bytes.map fun b => Char.ofNat b.toNat := by
  induction bytes using pack.induct size with
  | case1 =>
    rw [pack]
    rfl
  | case2 b rest ih =>
    have cut : (b :: rest).drop (max size 1) = rest.drop (size - 1) := by
      cases size <;> simp
    rw [pack, chars_cons, ih, String.toList_ofList, ← cut, ← List.map_append, List.take_append_drop]

theorem unpack_pack (size : Nat) (bytes : List UInt8) : unpack (pack size bytes) = .ok bytes := by
  have none : (chars (pack size bytes)).find? (fun c => !isByte c) = none := by
    rw [chars_pack, List.find?_eq_none]
    intro c hc
    obtain ⟨b, -, rfl⟩ := List.mem_map.1 hc
    have := b.toNat_lt
    simp [isByte, toNat_char]
    omega
  unfold unpack
  rw [none]
  simp only [chars_pack, List.map_map]
  congr 1
  refine (List.map_congr_left fun b _ => ?_).trans (List.map_id bytes)
  simp [toNat_char]

end ClassLedger.Payload
