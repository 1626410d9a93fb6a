import ClassLedger.Proofs.Payload.Pieces
import ClassLedger.Proofs.Record.RoundTrip
import ClassLedger.Proofs.Shape.ReadBack

/-!
# Shapes that survive encoding

The record of a shape is encoded whatever its size, and decoded only within the limits of a reader.  The pieces of its
payload are far below the limit of a string, so what counts is the number of payload bytes, the distinct names and
their lengths.
-/

namespace ClassLedger.Shape

open Payload

variable {s : Shape} {version : List Int32} {packageName : String}

/-- The limits within which the encoded record of a shape is decoded again. -/
structure Storable (s : Shape) (version : List Int32) (packageName : String) : Prop where
  names : s.names.eraseDups.length ≤ 2 ^ 20
  namesTexts : ∀ name ∈ s.names, name.utf8ByteSize ≤ 16 * 2 ^ 20
  facadeName : s.facadeName.utf8ByteSize ≤ 16 * 2 ^ 20
  packageName : packageName.utf8ByteSize ≤ 16 * 2 ^ 20
  version : version.length ≤ 2 ^ 20
  payload : s.payloadBytes.length ≤ 2 ^ 20 * 65535

/-- The pieces of a payload by their lengths. -/
theorem pieces_toRecord (composed : s.kind ≠ .multiFileFacade) :
    (∀ piece ∈ (s.toRecord version packageName).payload,
      piece ≠ "" ∧ piece.length ≤ 65535 ∧ piece.utf8ByteSize ≤ 131070) ∧
    ∀ piece ∈ (s.toRecord version packageName).payload.dropLast, piece.length = 65535 := by
  constructor
  · intro piece hpiece
    have bytes := utf8ByteSize_le_of_unpack_eq_ok (unpack_toRecord composed) hpiece
    rw [payload_toRecord composed] at hpiece
    obtain ⟨pos, chars⟩ := length_of_mem_pack hpiece
    have chars : piece.length ≤ 65535 := chars
    refine ⟨?_, chars, by omega⟩
    rintro rfl
    exact absurd pos (by decide)
  · intro piece hpiece
    rw [payload_toRecord composed] at hpiece
    exact length_of_mem_dropLast_pack hpiece

theorem withinLimits_toRecord_iff (composed : s.kind ≠ .multiFileFacade) :
    (s.toRecord version packageName).WithinLimits ↔ s.Storable version packageName := by
  have count : (s.toRecord version packageName).payload.length ≤ Limits.elements ↔
      s.payloadBytes.length ≤ 2 ^ 20 * 65535 := by
    rw [payload_toRecord composed]
    exact length_pack_le_iff
  have table : (s.toRecord version packageName).strings = s.names.eraseDups := strings_toRecord composed
  constructor
  · intro h
    refine ⟨?_, ?_, h.extraText, h.packageName, h.version, count.1 h.payload⟩
    · rw [← table]
      exact h.strings
    · intro name hname
      refine h.stringsTexts name ?_
      rw [table]
      exact List.mem_eraseDups.2 hname
  · intro h
    refine ⟨h.version, count.2 h.payload, ?_, ?_, ?_, h.facadeName, h.packageName⟩
    · rw [table]
      exact h.names
    -- No piece comes near the limit of a string.
    · intro piece hpiece
      exact Nat.le_trans ((pieces_toRecord composed).1 piece hpiece).2.2 (by decide)
    · intro name hname
      rw [table] at hname
      exact h.namesTexts name (List.mem_eraseDups.1 hname)

/-- Every piece of a composed payload is short, and all but the last one are full.  The encoded record of a shape is
decoded exactly if the shape is within the limits, which then lets it be encoded, and its shape is read back from the
record. -/
theorem decode_toRecord_iff_storable (s : Shape) (version : List Int32) (packageName : String)
    (composed : ∀ parts, s ≠ multiFileFacade parts) :
    let r := s.toRecord version packageName
    (unpack r.payload = .ok s.payloadBytes ∧
      (∀ piece ∈ r.payload, piece ≠ "" ∧ piece.length ≤ 65535 ∧ piece.utf8ByteSize ≤ 131070) ∧
      ∀ piece ∈ r.payload.dropLast, piece.length = 65535) ∧
    (∀ encoding, r.encode = .ok encoding → (Record.decode encoding = .ok r ↔ s.Storable version packageName)) ∧
    (s.Storable version packageName →
      (∃ encoding, r.encode = .ok encoding ∧ Record.decode encoding = .ok r) ∧
      ((∃ major ∈ version.head?, 1 ≤ major) → (∀ tag, s = unknown tag → ¬ (1 ≤ tag ∧ tag ≤ 5)) →
        r.interpret = .ok s)) := by
  intro r
  have composed : s.kind ≠ .multiFileFacade := by
    cases s with
    | multiFileFacade parts => exact absurd rfl (composed parts)
    | _ => nofun
  have storable : r.WithinLimits ↔ s.Storable version packageName := withinLimits_toRecord_iff composed
  refine ⟨⟨unpack_toRecord composed, pieces_toRecord composed⟩, ?_, ?_⟩
  · intro encoding encoded
    obtain ⟨-, rfl⟩ := Record.encode_eq_ok_iff.1 encoded
    rw [Record.decode_eq_ok_iff, storable]
    exact and_iff_right rfl
  · intro within
    have readable : r.WithinLimits := storable.2 within
    refine ⟨⟨r.form, Record.encode_eq_ok_iff.2 ⟨readable.fits, rfl⟩, Record.decode_eq_ok_iff.2 ⟨rfl, readable⟩⟩, ?_⟩
    intro major foreign
    have small : s.names.eraseDups.length ≤ UInt64.size := Nat.le_trans within.names (by decide)
    exact interpret_eq_ok (Record.versionIsReadable_iff.2 major) (ofTag_tag_kind foreign) small

/-- A class with so many constructors that its payload takes two pieces, the first one of 65535 characters. -/
theorem decode_toRecord_iff_storable_two_pieces :
    let s := ordinaryClass { name := "p/A", constructors := List.replicate 10923 (-1) }
    let r := s.toRecord [1, 9, 0] "p"
    (r.payload.length = 2 ∧ ∀ piece ∈ r.payload.dropLast, piece.length = 65535) ∧
    (∃ encoding, r.encode = .ok encoding ∧ Record.decode encoding = .ok r) ∧ r.interpret = .ok s := by
  intro s r
  have names : s.names = ["p/A"] := rfl
  have table : s.names.eraseDups = ["p/A"] := by decide +kernel
  have steps : s.steps = .string .className "p/A" :: (List.replicate 10923 (-1)).map (.flags .constructor) := by
    show _ :: ([] ++ ([] ++ ([] ++ (List.map _ (List.replicate 10923 (-1)) ++ [])))) = _
    rw [List.append_nil, List.nil_append, List.nil_append, List.nil_append]
  -- Two bytes for the name, and six for each constructor: its tag, and -1 as a 32-bit number.
  have bytes : s.payloadBytes.length = 2 + 10923 * 6 := by
    have name : (Step.toField ["p/A"] (.string .className "p/A")).form.length = 2 := by decide +kernel
    have constructor : (Step.toField ["p/A"] (.flags .constructor (-1))).form.length = 6 := by decide +kernel
    rw [payloadBytes, table, steps, Step.bytes, List.map_cons, List.flatMap_cons, List.length_append, name,
      List.map_replicate, List.map_replicate, List.length_flatMap, List.map_replicate, List.sum_replicate_nat,
      constructor]
  have storable : s.Storable [1, 9, 0] "p" := by
    refine ⟨?_, ?_, by decide, by decide, by decide, ?_⟩
    · rw [table]
      decide
    · rw [names, List.forall_mem_singleton]
      decide
    · rw [bytes]
      decide
  obtain ⟨⟨-, -, full⟩, -, stored⟩ :=
    decode_toRecord_iff_storable s [1, 9, 0] "p" fun _ same => by injection same
  obtain ⟨decoded, read⟩ := stored storable
  refine ⟨⟨?_, full⟩, decoded, read ⟨1, rfl, by decide⟩ fun _ same => by injection same⟩
  have payload : r.payload = pack Limits.chunkChars s.payloadBytes := payload_toRecord (by decide)
  have few : r.payload.length ≤ 2 := by
    rw [payload, length_pack_le_iff, bytes]
    decide
  have many : ¬ r.payload.length ≤ 1 := by
    rw [payload, length_pack_le_iff, bytes]
    decide
  omega

end ClassLedger.Shape
