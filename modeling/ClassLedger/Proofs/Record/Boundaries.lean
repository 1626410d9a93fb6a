import ClassLedger.Proofs.Record.Difference
import ClassLedger.Proofs.Record.Receiving
import ClassLedger.Proofs.Record.RoundTrip
import ClassLedger.Proofs.Wire.Extension
import ClassLedger.Snapshot.Codec

/-!
# Where records end

Records carry no mark at their end, and need none.  A reader that has not met the end of the bytes gives the same result
with any bytes behind them, so encodings are read one behind the other, and one that is cut short is always reported as
such.  The encodings keep apart by themselves, without a reader: two of them at the beginning of the same bytes belong
to equal records, also where a limit keeps them from being read.
-/

namespace ClassLedger.Record

open Wire

variable {r : Record} {bytes cut more : List UInt8}

/-! ### Reading up to the end of a record -/

theorem read_form_append (within : r.WithinLimits) (more : List UInt8) :
    (read : Read Slice Record) (.ofList (r.form ++ more)) = .ok r ⟨more, r.form.length⟩ := by
  rw [reads.eq_ok_iff, Slice.over_ofList_iff]
  exact ⟨⟨rfl, rfl⟩, withinLimits_iff.1 within⟩

theorem decode_form_append (within : r.WithinLimits) (some : more ≠ []) :
    decode (r.form ++ more) = .error (.trailingBytes more.length) := by
  have unread : ¬ (Slice.mk more r.form.length).isEmpty := by simpa [Slice.isEmpty] using some
  rw [decode_of_read (read_form_append within more), if_neg unread, Slice.remaining]

theorem read_of_cut (within : r.WithinLimits) (starts : cut <+: r.form) (shorter : cut ≠ r.form) :
    ∃ context s, (read : Read Slice Record) (.ofList cut) = .error (.endOfInput context) s := by
  obtain ⟨missing, whole⟩ := starts
  have some : missing ≠ [] := by
    rintro rfl
    exact shorter (by rw [← whole, List.append_nil])
  have all := read_form_append within []
  rw [List.append_nil, ← whole, Slice.ofList_append] at all
  exact settled_record.meets_end all (List.length_pos_iff.2 some)

/-- A record in a row is read from behind those before it. -/
theorem readEach_flatMap_form {records : List Record} (within : ∀ r ∈ records, r.WithinLimits) (more : List UInt8)
    {j : Nat} (found : records[j]? = some r) :
    (readEach Slice.position records.length (.ofList (records.flatMap form ++ more)))[j]? =
      some (.ok r, ((records.take (j + 1)).flatMap form).length) := by
  obtain ⟨less, rfl⟩ := List.getElem?_eq_some_iff.1 found
  have row : records.take j ++ [records[j]] = records.take (j + 1) := List.take_append_getElem less
  refine getElem?_readEach_eq_ok_iff.2 ⟨less, records.take j, List.length_take_of_le (Nat.le_of_lt less), ?_, ?_⟩
  · rw [row]
    exact fun x hx => within x (List.mem_of_mem_take hx)
  · rw [row, exists_over_ofList_iff]
    refine ⟨⟨(records.drop (j + 1)).flatMap form ++ more, ?_⟩, rfl⟩
    rw [← List.append_assoc, ← List.flatMap_append, List.take_append_drop]

/-- Whatever the bytes, a read that does not meet their end gives the same with more bytes behind them, and stops at
the same place.  So a record within the limits is read from its encoding up to the bytes behind it, records are read one
after the other from their joined encodings, decoding reports how many bytes stand behind a record, and every cut of an
encoding is reported as the end of the input. -/
theorem read_independent_of_bytes_behind (bytes more : List UInt8) :
    (∀ r s, (read : Read Slice Record) (.ofList bytes) = .ok r s →
      (read : Read Slice Record) (.ofList (bytes ++ more)) = .ok r ⟨s.rest ++ more, s.position⟩) ∧
    (∀ e s, (read : Read Slice Record) (.ofList bytes) = .error e s → (∀ context, e ≠ .endOfInput context) →
      (read : Read Slice Record) (.ofList (bytes ++ more)) = .error e ⟨s.rest ++ more, s.position⟩) ∧
    (∀ r : Record, r.WithinLimits → ∃ encoding, r.encode = .ok encoding ∧
      (read : Read Slice Record) (.ofList (encoding ++ more)) = .ok r ⟨more, encoding.length⟩ ∧
      (more ≠ [] → decode (encoding ++ more) = .error (.trailingBytes more.length)) ∧
      ∀ cut, cut <+: encoding → cut ≠ encoding → ∃ context,
        (∃ s, (read : Read Slice Record) (.ofList cut) = .error (.endOfInput context) s) ∧
        decode cut = .error (.endOfInput context)) ∧
    ∀ (records : List Record) (encodings : List (List UInt8)), (∀ r ∈ records, r.WithinLimits) →
      records.map encode = encodings.map .ok → ∀ j r, records[j]? = some r →
        (readEach Slice.position records.length (.ofList (encodings.flatten ++ more)))[j]? =
          some (.ok r, (encodings.take (j + 1)).flatten.length) := by
  refine ⟨?_, ?_, ?_, ?_⟩
  · intro r s read
    exact settled_record.ok read more
  · intro e s refused notEnd
    have going : e.isEnd = false := by
      rw [Bool.eq_false_iff, ne_eq, DecodeError.isEnd_iff]
      exact fun ⟨context, atEnd⟩ => notEnd context atEnd
    exact settled_record.refused refused going more
  · intro r within
    refine ⟨r.form, encode_eq_ok_iff.2 ⟨within.fits, rfl⟩, read_form_append within more, ?_, ?_⟩
    · exact decode_form_append within
    · intro cut starts shorter
      obtain ⟨context, s, met⟩ := read_of_cut within starts shorter
      exact ⟨context, ⟨s, met⟩, decode_eq_error met⟩
  · intro records encodings within encoded j r found
    obtain ⟨rfl, -⟩ := map_encode_eq_ok encoded
    have row := readEach_flatMap_form within more found
    rwa [List.flatMap_def, List.flatMap_def, List.map_take] at row

/-- A cut within the one character of the package name, and a length that is refused whatever stands behind it. -/
theorem read_independent_of_bytes_behind_character :
    let r : Record := { packageName := "é" }
    let negative : List UInt8 := [0, 0, 0, 1, 255, 255, 255, 255]
    r.WithinLimits ∧ r.form.take 25 <+: r.form ∧ r.form.take 25 ≠ r.form ∧
    (∃ context, decode (r.form.take 25) = .error (.endOfInput context)) ∧
    decode (r.form ++ [7]) = .error (.trailingBytes 1) ∧
    (read : Read Slice Record) (.ofList (negative ++ [7])) = .error (.negativeLength "version" (-1)) ⟨[7], 8⟩ ∧
    (readEach Slice.position 2 (.ofList ([r.form, r.form].flatten ++ [7])))[1]? = some (.ok r, 60) := by
  intro r negative
  have within : r.WithinLimits :=
    { version := by decide, payload := by decide, strings := by decide, payloadTexts := nofun, stringsTexts := nofun
      extraText := by decide, packageName := by decide +kernel }
  obtain ⟨-, refused, single, row⟩ := read_independent_of_bytes_behind negative [7]
  obtain ⟨encoding, encoded, -, trailing, cuts⟩ := single r within
  obtain ⟨-, rfl⟩ := encode_eq_ok_iff.1 encoded
  have shorter : r.form.take 25 ≠ r.form := by decide +kernel
  obtain ⟨context, -, cut⟩ := cuts (r.form.take 25) (List.take_prefix 25 r.form) shorter
  refine ⟨within, List.take_prefix 25 r.form, shorter, ⟨context, cut⟩, trailing (by decide), ?_, ?_⟩
  · exact refused _ ⟨[], 8⟩ rfl nofun
  · exact row [r, r] [r.form, r.form] (by simpa using within) (by simp [encoded]) 1 r rfl

/-! ### Encodings side by side -/

/-- Two records whose lengths fit four bytes are both encoded, and at the beginning of the same bytes only if they are
equal, with the same bytes behind them.  So equal encodings, which is all that a digest sees, equal records and records
without a difference are the same, and no encoding is the beginning of another one. -/
theorem encode_append_injective (a b : Record) (fitsA : a.Fits) (fitsB : b.Fits) :
    ∃ encodingA encodingB, a.encode = .ok encodingA ∧ b.encode = .ok encodingB ∧
      (∀ x y, encodingA ++ x = encodingB ++ y → a = b ∧ x = y) ∧
      (encodingA = encodingB ↔ a = b) ∧
      (∀ digest, a.contentDigest digest = .ok (digest encodingA) ∧ b.contentDigest digest = .ok (digest encodingB)) ∧
      ((a.changeFrom b).isUnchanged ↔ a = b) ∧ (a.unchangedFrom b ↔ a = b) ∧
      (encodingA <+: encodingB → encodingA = encodingB) := by
  have encodedA : a.encode = .ok a.form := encode_eq_ok_iff.2 ⟨fitsA, rfl⟩
  have encodedB : b.encode = .ok b.form := encode_eq_ok_iff.2 ⟨fitsB, rfl⟩
  have apart {x y : List UInt8} : a.form ++ x = b.form ++ y → a = b ∧ x = y := prefixFree fitsA fitsB
  refine ⟨a.form, b.form, encodedA, encodedB, fun _ _ => apart, ?_, ?_, isUnchanged_changeFrom_iff, unchangedFrom_iff,
    ?_⟩
  · refine ⟨fun same => ?_, congrArg form⟩
    exact (apart (congrArg (· ++ []) same)).1
  · intro digest
    simp only [contentDigest, encodedA, encodedB, Except.map, and_self]
  · rintro ⟨rest, same⟩
    obtain ⟨rfl, -⟩ := apart (same.trans (List.append_nil _).symm)
    rfl

/-- Records that are too long to be read differ in their last field, and so do their encodings. -/
theorem encode_append_injective_unreadable :
    let a : Record := { version := List.replicate (Limits.versionParts + 1) 0 }
    let b : Record := { a with extraFlags := 1 }
    a.Fits ∧ b.Fits ∧ ¬ a.WithinLimits ∧ a.form ≠ b.form ∧ ¬ a.form <+: b.form := by
  intro a b
  have length : a.version.length = 1048577 := List.length_replicate
  have fits (r : Record) (version : r.version = a.version) (others : r.payload = [] ∧ r.strings = [] ∧ r.extraText = "" ∧
      r.packageName = "") : r.Fits := by
    obtain ⟨payload, strings, extraText, packageName⟩ := others
    rw [fits_iff, version, length, payload, strings, extraText, packageName]
    refine ⟨by decide, ⟨by decide, nofun⟩, ⟨by decide, nofun⟩, by decide, by decide⟩
  have fitsA := fits a rfl ⟨rfl, rfl, rfl, rfl⟩
  have fitsB := fits b rfl ⟨rfl, rfl, rfl, rfl⟩
  have different : a ≠ b := fun same => absurd (congrArg extraFlags same) (by decide)
  have beyond : ¬ a.WithinLimits := by
    intro within
    have := within.version
    rw [length] at this
    exact absurd this (by decide)
  obtain ⟨encodingA, encodingB, encodedA, encodedB, -, same, -, -, -, starts⟩ := encode_append_injective a b fitsA fitsB
  obtain ⟨-, rfl⟩ := encode_eq_ok_iff.1 encodedA
  obtain ⟨-, rfl⟩ := encode_eq_ok_iff.1 encodedB
  exact ⟨fitsA, fitsB, beyond, mt same.1 different, fun begins => different (same.1 (starts begins))⟩

end ClassLedger.Record
