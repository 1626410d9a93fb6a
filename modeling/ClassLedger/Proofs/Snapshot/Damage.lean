import ClassLedger.Proofs.Concat
import ClassLedger.Proofs.Snapshot.Framing
import ClassLedger.Proofs.Wire.Varint
import ClassLedger.Snapshot.Standard

/-!
# A damaged byte is noticed

A plain encoding in which one byte has another value is refused, as a foreign magic number, as a foreign version or for
its digest, according to the place of the byte.  One value in one place turns the plain form into a compressed one.
Then the number of entries, which is not large, is taken for a size of 0, and no content of that size is a snapshot.
-/

namespace ClassLedger.Snapshot

open Wire

variable {p : Primitives} {s : Snapshot} {bytes content : List UInt8} {i : Nat} {x : UInt8}

private theorem set_ne_self {bytes : List UInt8} (inside : i < bytes.length) (other : x ≠ bytes[i]) :
    bytes.set i x ≠ bytes := by
  intro same
  have := congrArg (·[i]?) same
  simp only [List.getElem?_set_self inside, List.getElem?_eq_getElem inside, Option.some.injEq] at this
  exact other this

/-! ### The magic number -/

theorem decode_set_magic {rest : List UInt8} (front : i < magic.length) (inside : i < (magic ++ rest).length)
    (other : x ≠ (magic ++ rest)[i]) :
    decode p ((magic ++ rest).set i x) = .error (.invalidMagic (((magic ++ rest).set i x).take 4)) := by
  apply decode_of_foreign
  · simp
  · intro same
    have whole := List.take_append_drop 4 ((magic ++ rest).set i x)
    rw [same, List.drop_set_of_lt (show i < 4 from front), drop_magic] at whole
    exact set_ne_self inside other whole.symm

/-! ### The version -/

theorem decode_set_version {entries : List UInt8} (other : x ≠ formatVersion) (plain : x ≠ 0x5A)
    (small : (magic ++ formatVersion :: entries).length ≤ Limits.snapshotBytes) :
    decode p ((magic ++ formatVersion :: entries).set 4 x) = .error (.unsupportedVersion x) := by
  have damaged : (magic ++ formatVersion :: entries).set 4 x = magic ++ x :: entries := rfl
  rw [damaged, decode_of_version plain (by simpa using small), decodePlain_of_version other]

/-- The number of entries in a snapshot begins with a zero byte. -/
private theorem exists_lengthForm_eq_zero_cons {count : Nat} (h : count ≤ Limits.snapshotEntries) :
    ∃ rest, lengthForm count = 0 :: rest := by
  unfold Limits.snapshotEntries at h
  have value : (Int32.ofNat count).toUInt32.toNat = count := UInt32.toNat_ofNat_of_lt (show count < 4294967296 by omega)
  have high : count / 16777216 = 0 := by omega
  unfold lengthForm bigEndian
  simp only [value, high]
  exact ⟨_, rfl⟩

/-- Frames of declared size 0 have no content, or they are refused. -/
theorem inflateDeclared_zero (p : Primitives) (capacity : Nat) (frames : List UInt8) :
    (∃ message, inflateDeclared p 0 capacity frames = .error (.decompressionFailed message)) ∨
    inflateDeclared p 0 capacity frames = .error (.sizeMismatch 0 1) ∨
    inflateDeclared p 0 capacity frames = .ok [] := by
  unfold inflateDeclared
  cases taken : p.inflate (min 0 capacity) (0 + 1) frames >>= Delivery.take (0 + 1) with
  | error message => exact .inl ⟨message, rfl⟩
  | ok bytes =>
    obtain ⟨d, -, taken⟩ := except_bind_eq_ok_iff.1 taken
    have most := Delivery.length_take_le taken
    cases bytes with
    | nil => exact .inr (.inr rfl)
    | cons b rest =>
      obtain rfl : rest = [] := by simpa using most
      exact .inr (.inl rfl)

/-- No frames whatsoever are a snapshot of declared size 0. -/
theorem decode_marked_zero (p : Primitives) (frames : List UInt8) :
    (∃ message, decode p (compressedMagic ++ 0 :: frames) = .error (.decompressionFailed message)) ∨
    decode p (compressedMagic ++ 0 :: frames) = .error (.sizeMismatch 0 1) ∨
    decode p (compressedMagic ++ 0 :: frames) = .error (.endOfInput "magic") := by
  have path : (Slice.ofList (0 :: frames)).Over (varint 0) ⟨frames, 1⟩ := by
    rw [varint_of_lt (by decide)]
    exact Slice.over_ofList_iff.2 ⟨rfl, rfl⟩
  have content : decompressBody p (0 :: frames) = inflateDeclared p 0 (4 * (0 :: frames).length) frames := by
    unfold decompressBody
    rw [Slice.readVarint_of_over path (by decide)]
    exact if_neg (by decide)
  rw [decode_marked, content]
  refine (inflateDeclared_zero p (4 * (0 :: frames).length) frames).imp (.imp fun message => ?_) (.imp ?_ ?_)
  all_goals
    intro outcome
    rw [outcome]
    rfl

/-! ### Entries and digest -/

/-- Content that has another digest is refused, and so is another digest. -/
theorem decode_set_sealed (small : (sealed p content).length ≤ Limits.snapshotBytes) (behind : 5 ≤ i)
    (inside : i < (sealed p content).length) (other : x ≠ (sealed p content)[i])
    (noCollision : p.digest (covered ((sealed p content).set i x)) = p.digest (headed content) →
      covered ((sealed p content).set i x) = headed content) :
    decode p ((sealed p content).set i x) = .error .checksumMismatch := by
  have changed := set_ne_self inside other
  have size : ((sealed p content).set i x).length ≤ Limits.snapshotBytes := by rwa [List.length_set]
  have length := length_digest (p.digest (headed content))
  unfold sealed at changed noCollision size ⊢
  by_cases before : i < (headed content).length
  · rw [List.set_append_left _ _ before] at changed noCollision size ⊢
    obtain ⟨k, rfl⟩ := Nat.exists_eq_add_of_le' behind
    have front : (headed content).set (k + 5) x = headed (content.set k x) := rfl
    rw [front] at changed noCollision size ⊢
    rw [covered_append length] at noCollision
    refine decode_of_digest length size ?_
    intro same
    exact changed (congrArg (· ++ _) (noCollision (Vector.toList_inj.1 same)))
  · rw [List.set_append_right _ _ (Nat.not_lt.1 before)] at changed size ⊢
    refine decode_of_digest (by rwa [List.length_set]) size ?_
    intro same
    exact changed (congrArg (_ ++ ·) same.symm)

/-- A plain encoding with another byte in one place is refused: in the magic number with the four bytes found, in the
version as that version, and behind it for the digest, as long as the digest tells the damaged content from the
original.  In place of the version, `Z` marks what follows as compressed; then it is refused whatever a decoder of
frames makes of it. -/
theorem decode_set_encoding (p : Primitives) (s : Snapshot) (bytes : List UInt8) (encoded : s.encode p {} = .ok bytes)
    (i : Nat) (inside : i < bytes.length) (x : UInt8) (other : x ≠ bytes[i]) :
    let damaged := bytes.set i x
    (i < 4 → decode p damaged = .error (.invalidMagic (damaged.take 4))) ∧
    (i = 4 → x ≠ 0x5A → decode p damaged = .error (.unsupportedVersion x)) ∧
    (i = 4 → x = 0x5A → (∃ message, decode p damaged = .error (.decompressionFailed message)) ∨
      decode p damaged = .error (.sizeMismatch 0 1) ∨ decode p damaged = .error (.endOfInput "magic")) ∧
    (5 ≤ i → (p.digest (covered damaged) = p.digest (covered bytes) → covered damaged = covered bytes) →
      decode p damaged = .error .checksumMismatch) := by
  intro damaged
  rw [encode_plain] at encoded
  obtain ⟨count, small, rfl⟩ := encodePlain_eq_ok_iff.1 encoded
  obtain ⟨frames, parts⟩ : ∃ frames, plainForm p s.entries = magic ++ formatVersion :: 0 :: frames := by
    obtain ⟨rest, zero⟩ := exists_lengthForm_eq_zero_cons count
    rw [plainForm, sealed, headed_append, listForm, ← Snapshot.size, zero]
    exact ⟨_, rfl⟩
  refine ⟨?_, ?_, ?_, ?_⟩
  · intro front
    simp only [damaged, parts] at inside other ⊢
    exact decode_set_magic front inside other
  · rintro rfl plain
    simp only [damaged, parts] at inside other small ⊢
    exact decode_set_version other plain small
  · rintro rfl rfl
    simp only [damaged, parts]
    exact decode_marked_zero p frames
  · intro behind noCollision
    refine decode_set_sealed small behind inside other ?_
    have whole : covered (plainForm p s.entries) = headed (listForm entryForm s.entries) :=
      covered_append (length_digest _) _
    rwa [whole] at noCollision

/-- One entry is announced where there is none. -/
theorem decode_set_encoding_count :
    let p := Primitives.standard
    let bytes := plainForm p []
    empty.encode p {} = .ok bytes ∧ decode p (bytes.set 8 1) = .error .checksumMismatch := by
  intro p bytes
  have length : bytes.length = 41 := length_sealed p _
  have encoded : empty.encode p {} = .ok bytes := by
    rw [encode_plain]
    refine encodePlain_eq_ok_iff.2 ⟨by decide, ?_, rfl⟩
    show bytes.length ≤ _
    rw [length]
    decide
  have inside : 8 < bytes.length := by rw [length]; decide
  have other : (1 : UInt8) ≠ bytes[8] := show (1 : UInt8) ≠ 0 by decide
  have whole : covered bytes = [0x4B, 0x54, 0x4D, 0x53, 1, 0, 0, 0, 0] := covered_append (length_digest _) _
  have parts : bytes.set 8 1 = [0x4B, 0x54, 0x4D, 0x53, 1, 0, 0, 0, 1] ++ (p.digest (headed [0, 0, 0, 0])).toList := rfl
  have damaged : covered (bytes.set 8 1) = [0x4B, 0x54, 0x4D, 0x53, 1, 0, 0, 0, 1] := by
    rw [parts, covered_append (length_digest _)]
  obtain ⟨-, -, -, behind⟩ := decode_set_encoding p empty bytes encoded 8 inside 1 other
  refine ⟨encoded, behind (by decide) ?_⟩
  rw [whole, damaged]
  intro same
  exact absurd same (by decide +kernel)

end ClassLedger.Snapshot
