import ClassLedger.Proofs.Record.Sending
import ClassLedger.Proofs.Wire.Reservation

/-!
# The encoded length of a record

The length of an encoding can be computed without writing it.  For a record that is encoded the computed length is that
of its encoding, and it fits 64 bits, since four bytes hold every length that goes into it.  So memory of that size,
reserved in advance, is just enough: it is full in the end, and any less would have been outgrown.
-/

namespace ClassLedger.Record

open Wire

variable {r : Record} {bytes : List UInt8}

/-! ### Lengths of forms -/

theorem length_listForm_int32 (parts : List Int32) : (listForm bigEndian parts).length = 4 + 4 * parts.length := by
  rw [length_listForm]
  congr 1
  induction parts with
  | nil => rfl
  | cons part rest ih =>
    rw [List.flatMap_cons, List.length_append, ih, length_bigEndian, List.length_cons]
    omega

theorem length_listForm_string (items : List String) :
    (listForm stringForm items).length = 4 + stringsLength items := by
  rw [length_listForm]
  congr 1
  induction items with
  | nil => rfl
  | cons s rest ih => rw [List.flatMap_cons, List.length_append, ih, length_stringForm, stringsLength]

/-- The computed length of a record is that of its form. -/
theorem length_form (r : Record) : r.form.length = r.encodedLength := by
  simp only [form, List.length_append, length_bigEndian, length_listForm_int32, length_listForm_string,
    length_stringForm, encodedLength]
  omega

/-! ### Bounds -/

theorem stringsLength_le {items : List String} {limit : Nat} (h : ∀ s ∈ items, s.utf8ByteSize ≤ limit) :
    stringsLength items ≤ items.length * (4 + limit) := by
  induction items with
  | nil => exact Nat.zero_le _
  | cons s rest ih =>
    obtain ⟨first, others⟩ := List.forall_mem_cons.1 h
    have bound := ih others
    rw [stringsLength, List.length_cons, Nat.add_one_mul]
    omega

/-- The length of a record whose lengths fit four bytes fits eight, so no part of the sum is too large either. -/
theorem encodedLength_lt (fits : r.Fits) : r.encodedLength < UInt64.size := by
  obtain ⟨version, ⟨payload, payloadTexts⟩, ⟨strings, stringsTexts⟩, extraText, packageName⟩ := fits_iff.1 fits
  have texts {items : List String} (count : items.length ≤ Limits.prefixValue)
      (sizes : ∀ s ∈ items, s.utf8ByteSize ≤ Limits.prefixValue) :
      stringsLength items ≤ Limits.prefixValue * (4 + Limits.prefixValue) :=
    Nat.le_trans (stringsLength_le sizes) (Nat.mul_le_mul_right _ count)
  have payloadBound := texts payload payloadTexts
  have stringsBound := texts strings stringsTexts
  unfold encodedLength UInt64.size
  unfold Limits.prefixValue at *
  omega

/-! ### Reserved memory -/

/-- The encoding of a record is as long as computed, and this length fits 64 bits.  Written into memory of any size, the
bytes are the same, and they are moved to larger memory exactly if the size is below the computed length.  So what was
reserved for that length still holds the bytes in the end, and they fill it. -/
theorem encodedLength_exact (encoded : r.encode = .ok bytes) :
    (bytes.length = r.encodedLength ∧ r.encodedLength < UInt64.size) ∧
    ∀ (capacity : Nat) (slack : Nat → Nat), ∃ v : Reserve,
      r.write (Reserve.ofCapacity capacity slack) = .ok () v ∧ v.buffer.toList = bytes ∧
      (r.encodedLength ≤ capacity → v.moves = 0 ∧ v.capacity = capacity) ∧
      (capacity < r.encodedLength → 0 < v.moves) := by
  obtain ⟨fits, rfl⟩ := encode_eq_ok_iff.1 encoded
  refine ⟨⟨r.length_form, encodedLength_lt fits⟩, fun capacity slack => ?_⟩
  obtain ⟨v, received, written⟩ := Reserve.write_chunks r.chunks (.ofCapacity capacity slack)
  rw [flatMap_bytes_chunks] at received
  have needed : (Reserve.ofCapacity capacity slack).buffer.size + r.form.length = r.encodedLength := by
    rw [r.length_form]
    exact Nat.zero_add _
  refine ⟨v, ?_, received.toList, ?_, ?_⟩
  · rw [write_eq_chunks fits, written]
  · intro enough
    exact received.stays (by rwa [needed])
  · intro short
    exact received.moved (by rwa [needed])

/-- Two characters of five bytes, and memory for the record that is full, or too small by one byte. -/
theorem encodedLength_exact_accented :
    let r : Record := { kind := 1, version := [7], payload := ["é€"], packageName := "p", extraFlags := -2 }
    r.encode = .ok r.form ∧ r.form.length = 42 ∧
    (∃ v : Reserve, r.write (Reserve.ofCapacity 42 id) = .ok () v ∧ v.buffer.toList = r.form ∧
      v.moves = 0 ∧ v.capacity = 42) ∧
    ∃ v : Reserve, r.write (Reserve.ofCapacity 41 id) = .ok () v ∧ v.buffer.toList = r.form ∧ 0 < v.moves := by
  intro r
  have fits : r.Fits := by
    rw [fits_iff]
    decide
  have encoded : r.encode = .ok r.form := encode_eq_ok_iff.2 ⟨fits, rfl⟩
  obtain ⟨⟨length, -⟩, reserved⟩ := encodedLength_exact encoded
  have computed : r.encodedLength = 42 := by decide
  rw [computed] at length reserved
  obtain ⟨v, written, same, stays, -⟩ := reserved 42 id
  obtain ⟨u, written', same', -, moved⟩ := reserved 41 id
  exact ⟨encoded, length, ⟨v, written, same, stays (Nat.le_refl 42)⟩, u, written', same', moved (by decide)⟩

end ClassLedger.Record
