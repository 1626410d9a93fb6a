import ClassLedger.Proofs.Record.Form

/-!
# Records and their encodings

Decoding accepts exactly the encodings of the records within the limits, and gives back the record that was encoded.
Encoding takes every record whose lengths fit four bytes, so some encodings are not accepted; such a one is refused
with the first length beyond its limit.
-/

namespace ClassLedger.Record

open Wire

variable {r : Record} {bytes : List UInt8}

theorem decode_eq_ok_iff : decode bytes = .ok r ↔ bytes = r.form ∧ r.WithinLimits := by
  unfold decode
  constructor
  · intro h
    split at h
    · rename_i s ok
      obtain ⟨path, within⟩ := reads.sound ok
      split at h
      · rename_i empty
        obtain rfl := Except.ok.inj h
        have none : s.rest = [] := by simpa [Slice.isEmpty] using empty
        have whole := (Slice.over_ofList_iff.1 path).1
        rw [none, List.append_nil] at whole
        exact ⟨whole, withinLimits_iff.2 within⟩
      · cases h
    · cases h
  · rintro ⟨rfl, within⟩
    have path : (Slice.ofList r.form).Over r.form ⟨[], r.form.length⟩ := Slice.over_ofList_iff.2 (by simp)
    rw [reads.eq_ok_iff.2 ⟨path, withinLimits_iff.1 within⟩]
    rfl

theorem decode_of_read {s : Slice} (h : (read : Read Slice Record) (.ofList bytes) = .ok r s) :
    decode bytes = if s.isEmpty then .ok r else .error (.trailingBytes s.remaining) := by
  unfold decode
  rw [h]

theorem decode_eq_error {e : DecodeError} {s : Slice}
    (h : (read : Read Slice Record) (.ofList bytes) = .error e s) : decode bytes = .error e := by
  unfold decode
  rw [h]

/-- The form of a record beyond the limits is refused with its first length beyond the limit. -/
theorem decode_form_eq_refusal (fits : r.Fits) {m : Measure} (first : firstBeyond r.measures = some m) :
    decode r.form = .error m.refusal := by
  have path : (Slice.ofList r.form).Over r.form ⟨[], r.form.length⟩ := Slice.over_ofList_iff.2 (by simp)
  obtain ⟨u, refused⟩ := (reads.outcome path fits).eq_error first
  exact decode_eq_error refused

/-- A byte string decodes to `r` exactly if `r` encodes to it and is within the limits.  Every record within the limits
has such an encoding.  The encoding of a record beyond them is refused with its first length beyond the limit, in the
order in which the lengths are written. -/
theorem decode_exactly_encodings (bytes : List UInt8) (r : Record) :
    (decode bytes = .ok r ↔ r.encode = .ok bytes ∧ r.WithinLimits) ∧
    (r.WithinLimits → ∃ encoding, r.encode = .ok encoding ∧ decode encoding = .ok r) ∧
    (r.encode = .ok bytes → ¬ r.WithinLimits → ∃ m, firstBeyond r.measures = some m ∧
      decode bytes = .error (.lengthExceedsLimit m.field m.length m.limit)) := by
  refine ⟨?_, ?_, ?_⟩
  · rw [decode_eq_ok_iff, encode_eq_ok_iff]
    exact ⟨fun ⟨same, within⟩ => ⟨⟨within.fits, same⟩, within⟩, fun ⟨⟨_, same⟩, within⟩ => ⟨same, within⟩⟩
  · intro within
    exact ⟨r.form, encode_eq_ok_iff.2 ⟨within.fits, rfl⟩, decode_eq_ok_iff.2 ⟨rfl, within⟩⟩
  · intro encoded beyond
    obtain ⟨fits, rfl⟩ := encode_eq_ok_iff.1 encoded
    rw [withinLimits_iff] at beyond
    obtain ⟨m, first⟩ := exists_firstBeyond beyond
    exact ⟨m, first, decode_form_eq_refusal fits first⟩

/-- A version with one part too many is encoded, and refused when it is read. -/
theorem decode_exactly_encodings_long_version :
    let r : Record := { version := List.replicate (Limits.versionParts + 1) 0 }
    r.encode = .ok r.form ∧ decode r.form = .error (.lengthExceedsLimit "version" 1048577 1048576) := by
  intro r
  have length : r.version.length = 1048577 := List.length_replicate
  have fits : r.Fits := by
    rw [fits_iff, length]
    refine ⟨by decide, ⟨by decide, nofun⟩, ⟨by decide, nofun⟩, by decide, by decide⟩
  have encoded : r.encode = .ok r.form := encode_eq_ok_iff.2 ⟨fits, rfl⟩
  have beyond : ¬ r.WithinLimits := by
    intro within
    have := within.version
    rw [length] at this
    exact absurd this (by decide)
  obtain ⟨m, first, refused⟩ := (decode_exactly_encodings r.form r).2.2 encoded beyond
  have : m = r.versionMeasure := by
    have head : firstBeyond r.measures = some r.versionMeasure := by
      simp only [measures, firstBeyond, List.find?_cons, versionMeasure, length, Limits.versionParts, Limits.elements]
      rfl
    exact Option.some.inj (first.symm.trans head)
  subst this
  refine ⟨encoded, refused.trans ?_⟩
  simp only [versionMeasure, length, Limits.versionParts, Limits.elements]

end ClassLedger.Record
