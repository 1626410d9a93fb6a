import ClassLedger.Proofs.Snapshot.Framing
import ClassLedger.Proofs.Snapshot.Reading
import ClassLedger.Proofs.Wire.Varint
import ClassLedger.Snapshot.Standard

/-!
# Snapshots and their encodings

A snapshot has an encoding, plain or compressed, if it has not too many entries and its plain form is not too large.
The limits on single lengths are not checked before a snapshot is written.  An encoding is refused with the first
length beyond its limit, and decodes to the snapshot without one.  Compression makes no difference to this.
-/

namespace ClassLedger

open Wire

/-- Some content can be compressed at a level, and is given back whole out of the frames if more bytes than it has are
asked for. -/
def Primitives.Restores (p : Primitives) (level : Int32) (content : List UInt8) : Prop :=
  ∃ frames, p.deflate level content = .ok frames ∧ ∀ capacity limit, content.length < limit →
    p.inflate capacity limit frames >>= Delivery.take limit = .ok content

namespace Snapshot

variable {p : Primitives} {s : Snapshot} {plain bytes frames : List UInt8} {format : Format}

/-! ### Compressed content -/

theorem inflateDeclared_eq_ok {capacity : Nat} (restored : ∀ capacity limit, plain.length < limit →
      p.inflate capacity limit frames >>= Delivery.take limit = .ok plain) :
    inflateDeclared p plain.length capacity frames = .ok plain := by
  unfold inflateDeclared
  rw [restored _ _ (Nat.lt_succ_self _)]
  exact if_pos rfl

theorem decompressBody_eq_ok (small : plain.length ≤ Limits.snapshotBytes)
    (restored : ∀ capacity limit, plain.length < limit →
      p.inflate capacity limit frames >>= Delivery.take limit = .ok plain) :
    decompressBody p (varint plain.length ++ frames) = .ok plain := by
  have path : (Slice.ofList (varint plain.length ++ frames)).Over (varint plain.length)
      ⟨frames, (varint plain.length).length⟩ := Slice.over_ofList_iff.2 ⟨rfl, rfl⟩
  have fits : plain.length < UInt64.size := Nat.lt_of_le_of_lt small (by decide)
  have value : (UInt64.ofNat plain.length).toNat = plain.length := UInt64.toNat_ofNat_of_lt fits
  unfold decompressBody
  rw [Slice.readVarint_of_over path fits]
  simp only [value]
  rw [if_neg (Nat.not_lt.2 small), inflateDeclared_eq_ok restored]

/-! ### Encodings -/

/-- The encoding is the plain form, or has it as its content. -/
theorem encode_eq_ok (h : s.encodePlain p = .ok plain)
    (restores : format.compressed → ∀ plain, s.encodePlain p = .ok plain → p.Restores format.level plain) :
    ∃ bytes, s.encode p format = .ok bytes ∧ decode p bytes = decode p plain ∧
      (format.compressed → decompress p bytes = .ok plain) := by
  obtain ⟨-, small, rfl⟩ := encodePlain_eq_ok_iff.1 h
  by_cases compressed : format.compressed
  · obtain ⟨frames, deflated, restored⟩ := restores compressed _ h
    have content := decompressBody_eq_ok small restored
    refine ⟨compressedMagic ++ (varint (plainForm p s.entries).length ++ frames), ?_, ?_, ?_⟩
    · unfold encode
      rw [h]
      simp only [bind, Except.bind, if_pos compressed, deflated]
      rfl
    · rw [decode_marked, content, plainForm, decode_sealed small, ← decodePlain_sealed p]
      rfl
    · intro _
      rw [decompress_marked, content]
  · refine ⟨plainForm p s.entries, ?_, rfl, fun marked => absurd marked compressed⟩
    unfold encode
    rw [h]
    simp only [bind, Except.bind, if_neg compressed]
    rfl

private theorem encodePlain_of_encode (h : s.encode p format = .ok bytes) :
    s.encodePlain p = .ok (plainForm p s.entries) := by
  cases plain : s.encodePlain p with
  | error e =>
    unfold encode at h
    rw [plain] at h
    cases h
  | ok content => rw [(encodePlain_eq_ok_iff.1 plain).2.2]

/-- Where compression can be undone, a snapshot has an encoding exactly if there are not too many entries and the plain
form is not too large.  The encoding decodes to the snapshot exactly if every entry is within the limits, and is
refused otherwise with the first length beyond its limit, in the order in which the lengths are written.  It decodes to
the same as the plain form, which is the content of a compressed encoding. -/
theorem encode_characterized (p : Primitives) (s : Snapshot) (format : Format)
    (restores : format.compressed → ∀ plain, s.encodePlain p = .ok plain → p.Restores format.level plain) :
    ((∃ bytes, s.encode p format = .ok bytes) ↔
      s.size ≤ Limits.snapshotEntries ∧ (plainForm p s.entries).length ≤ Limits.snapshotBytes) ∧
    ∀ bytes, s.encode p format = .ok bytes →
      (decode p bytes = .ok s ↔ ∀ e ∈ s.entries, EntryWithinLimits e) ∧
      (¬ (∀ e ∈ s.entries, EntryWithinLimits e) → ∃ m, firstBeyond (s.entries.flatMap entryMeasures) = some m ∧
        decode p bytes = .error (.lengthExceedsLimit m.field m.length m.limit)) ∧
      s.encode p {} = .ok (plainForm p s.entries) ∧
      decode p bytes = decode p (plainForm p s.entries) ∧
      (format.compressed → decompress p bytes = .ok (plainForm p s.entries)) := by
  refine ⟨?_, ?_⟩
  -- Only the plain form can be refused, since compression succeeds.
  · constructor
    · rintro ⟨bytes, h⟩
      obtain ⟨size, small, -⟩ := encodePlain_eq_ok_iff.1 (encodePlain_of_encode h)
      exact ⟨size, small⟩
    · rintro ⟨size, small⟩
      obtain ⟨bytes, encoded, -⟩ := encode_eq_ok (encodePlain_eq_ok_iff.2 ⟨size, small, rfl⟩) restores
      exact ⟨bytes, encoded⟩
  · intro bytes h
    have plain := encodePlain_of_encode h
    obtain ⟨size, small, -⟩ := encodePlain_eq_ok_iff.1 plain
    obtain ⟨bytes', encoded, same, content⟩ := encode_eq_ok plain restores
    obtain rfl : bytes = bytes' := Except.ok.inj (h.symm.trans encoded)
    rw [same, decode_plainForm size small (.refl _), forall_entryWithinLimits_iff]
    refine ⟨⟨?_, verdict_of_within⟩, ?_, ?_, rfl, content⟩
    · intro decoded
      by_cases within : ∀ m ∈ s.entries.flatMap entryMeasures, m.Within
      · exact within
      · obtain ⟨m, first⟩ := exists_firstBeyond within
        rw [verdict_of_firstBeyond first] at decoded
        cases decoded
    · intro beyond
      obtain ⟨m, first⟩ := exists_firstBeyond beyond
      exact ⟨m, first, verdict_of_firstBeyond first⟩
    · rw [encode_plain, plain]

/-- A snapshot goes through a stored frame of one block, whose content stands behind nine bytes. -/
theorem encode_characterized_stored :
    let p := { Primitives.standard with inflate := fun _ _ frames => .ok (.block (frames.drop 9) fun _ => .done) }
    let s := empty.insert "A" {}
    ∃ bytes, s.encode p (.compressedAt 19) = .ok bytes ∧ decode p bytes = .ok s := by
  intro p s
  have length : (plainForm p s.entries).length = 74 := by
    rw [plainForm, length_sealed]
    decide +kernel
  have restores : ∀ plain, s.encodePlain p = .ok plain → p.Restores 19 plain := by
    intro plain encoded
    obtain ⟨-, -, same⟩ := encodePlain_eq_ok_iff.1 encoded
    rw [← same] at length
    have size : plain.length ≤ Zstd.storedBlockBytes := by
      rw [length]
      decide
    refine ⟨Zstd.store plain, rfl, ?_⟩
    intro capacity limit less
    have stored : (Zstd.store plain).drop 9 = plain := by
      unfold Zstd.store Zstd.storeBlocks
      simp [List.splitAt_eq, List.take_of_length_le size, List.drop_of_length_le size, Zstd.storedBlockHeader,
        Zstd.storedHeader]
    show Delivery.take limit (.block ((Zstd.store plain).drop 9) fun _ => .done) = .ok plain
    simp [stored, Delivery.take, Delivery.takeOnto, List.take_of_length_le (Nat.le_of_lt less), Nat.not_le.2 less]
  obtain ⟨writable, readable⟩ := encode_characterized p s (.compressedAt 19) fun _ => restores
  obtain ⟨bytes, encoded⟩ := writable.2 ⟨by decide, by rw [length]; decide⟩
  refine ⟨bytes, encoded, (readable bytes encoded).1.2 ?_⟩
  rw [forall_entryWithinLimits_iff]
  decide +kernel

end Snapshot

end ClassLedger
