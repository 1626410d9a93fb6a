import ClassLedger.Proofs.Payload.Composition
import ClassLedger.Proofs.Payload.Pieces
import ClassLedger.Proofs.Wire.Shortest

/-!
# Fields come back from strings

Any fields, whatever their tags and values, can be appended, packed into strings of any size, unpacked and read: the
same fields come out, and the bytes end behind the last one.  On the way each number takes its shortest form, and the
strings are as few as their size allows.
-/

namespace ClassLedger.Payload

open Wire

theorem finish_fields (fields : List Field) (size : Nat) :
    (fields.foldl (fun c f => c.field f.tag f.value) Composer.empty).finish size =
      (pack size (fields.flatMap Field.form), []) := by
  have composed := Composer.composed_empty.foldl_put (fields.map fun f => Step.field f.tag f.value)
  rw [List.foldl_map, List.nil_append] at composed
  have table : Step.table (fields.map fun f => .field f.tag f.value) = [] := by
    have none : (fields.map fun f => Step.field f.tag f.value).filterMap Step.text? = [] := by simp [Step.text?]
    rw [Step.table, none, List.eraseDups_nil]
  have same : (fields.map fun f => Step.field f.tag f.value).map (Step.toField []) = fields := by
    simp [Function.comp_def, Step.toField]
  refine (composed.finish_eq size).trans ?_
  rw [table, Step.bytes, same]

/-- The fields that were appended are read from the unpacked strings, without an error and with nothing behind them,
and no name is in the table.  Packed bytes are as few strings as their size allows, none of them empty and all but the
last one full, where a size of 0 counts as 1.  Every number takes its one shortest form, of one to ten bytes; a writer
that fills ten bytes with the digits of a machine word finds a place for each of them and arrives at the same form. -/
theorem finish_read_back (fields : List Field) (size : Nat) :
    let written := (fields.foldl (fun c f => c.field f.tag f.value) Composer.empty).finish size
    (∃ bytes, unpack written.1 = .ok bytes ∧ Field.ofBytes bytes = (fields, none)) ∧
    written.2 = [] ∧
    (∀ bytes, (pack size bytes).length = bytes.length ⌈/⌉ max size 1 ∧
      (∀ piece ∈ pack size bytes, piece ≠ "" ∧ piece.length ≤ max size 1) ∧
      ∀ piece ∈ (pack size bytes).dropLast, piece.length = max size 1) ∧
    ∀ (n : UInt64) (b : Buffer), ∃ form,
      (b.appendVarint n).toList = b.toList ++ form ∧ 1 ≤ form.length ∧ form.length ≤ 10 ∧ Leb128 n.toNat form ∧
      (∀ other, Leb128 n.toNat other → form.length ≤ other.length ∧ (other.length = form.length → other = form)) ∧
      ∀ bytes, fillDigits n 0 bytes = some form := by
  intro written
  have packed : written = (pack size (fields.flatMap Field.form), []) := finish_fields fields size
  refine ⟨?_, ?_, fun bytes => ⟨length_pack size bytes, ?_, ?_⟩, fun n b => ⟨varint n.toNat, ?_⟩⟩
  · rw [packed]
    exact ⟨_, unpack_pack size _, Field.ofBytes_form fields⟩
  · rw [packed]
  · intro piece hpiece
    obtain ⟨pos, chars⟩ := length_of_mem_pack hpiece
    refine ⟨?_, chars⟩
    rintro rfl
    exact absurd pos (by decide)
  · intro piece hpiece
    exact length_of_mem_dropLast_pack hpiece
  · have most : (varint n.toNat).length ≤ Limits.varintBytes := length_varint_le n.toNat_lt
    refine ⟨Buffer.toList_append b _, length_varint_pos _, most, leb128_varint _, fun other form => ?_, fun bytes => ?_⟩
    · exact ⟨form.length_varint_le, fun same => form.eq_varint same.le⟩
    · rw [fillDigits_eq (by rwa [Nat.zero_add]), List.take_zero, List.nil_append]

/-- The largest number takes ten bytes and comes back from strings of one character each. -/
theorem finish_read_back_largest :
    let fields : List Field := [⟨18446744073709551615, 300⟩, ⟨0, 127⟩]
    let written := (fields.foldl (fun c f => c.field f.tag f.value) Composer.empty).finish 0
    (∃ bytes, unpack written.1 = .ok bytes ∧ Field.ofBytes bytes = (fields, none)) ∧
    (pack 0 (fields.flatMap Field.form)).length = 14 ∧
    fillDigits 18446744073709551615 0 (.replicate _ 0) = some [255, 255, 255, 255, 255, 255, 255, 255, 255, 1] := by
  intro fields written
  obtain ⟨read, -, pieces, numbers⟩ := finish_read_back fields 0
  have bytes : (fields.flatMap Field.form).length = 14 := by decide +kernel
  obtain ⟨form, appended, -, -, -, -, filled⟩ := numbers 18446744073709551615 .empty
  refine ⟨read, ?_, ?_⟩
  · rw [(pieces _).1, bytes]
    rfl
  · rw [filled, ← show _ = form from appended]
    decide +kernel

end ClassLedger.Payload
