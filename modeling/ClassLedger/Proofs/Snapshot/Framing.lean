import ClassLedger.Proofs.Snapshot.Form

/-!
# What the first bytes of a snapshot decide

The magic number tells plain and compressed bytes apart.  A foreign one is refused with the bytes found, plain bytes
are refused for their version or for a digest that does not fit before any entry is read, and compressed ones are
treated like their content.
-/

namespace ClassLedger

private theorem Delivery.length_takeOnto_le {limit : Nat} {d : Delivery} {got : Array UInt8} {bytes : List UInt8}
    (within : got.size ≤ limit) (h : d.takeOnto limit got = .ok bytes) : bytes.length ≤ limit := by
  induction d generalizing got with
  | done =>
    obtain rfl := Except.ok.inj h
    exact within
  | broken => cases h
  | block piece next ih =>
    have within' : (got ++ piece.take (limit - got.size)).size ≤ limit := by
      rw [← Array.length_toList, Array.toList_appendList, List.length_append, Array.length_toList, List.length_take]
      omega
    simp only [takeOnto] at h
    split at h
    · obtain rfl := Except.ok.inj h
      exact within'
    · exact ih () within' h

theorem Delivery.length_take_le {limit : Nat} {d : Delivery} {bytes : List UInt8} (h : d.take limit = .ok bytes) :
    bytes.length ≤ limit :=
  length_takeOnto_le (Nat.zero_le _) h

namespace Snapshot

variable {p : Primitives} {bytes content entries : List UInt8} {version : UInt8}

/-! ### Magic numbers -/

theorem take_magic (rest : List UInt8) : (magic ++ rest).take 4 = magic := rfl

theorem drop_magic (rest : List UInt8) : (magic ++ rest).drop 4 = rest := rfl

theorem take_marked (content : List UInt8) : (compressedMagic ++ content).take 5 = compressedMagic :=
  List.take_left' rfl

theorem drop_marked (content : List UInt8) : (compressedMagic ++ content).drop 5 = content :=
  List.drop_left' rfl

theorem decompress_marked (p : Primitives) (content : List UInt8) :
    decompress p (compressedMagic ++ content) = decompressBody p content := by
  unfold decompress
  rw [if_neg (by simp), if_neg (by simp [take_marked]), drop_marked]

/-- Compressed bytes are read as the plain form that is their content. -/
theorem decode_marked (p : Primitives) (content : List UInt8) :
    decode p (compressedMagic ++ content) = decompressBody p content >>= decodePlain p := by
  unfold decode
  rw [if_neg (by simp [magic, compressedMagic]), if_pos (take_marked content), drop_marked]
  cases decompressBody p content <;> rfl

/-- Bytes with a foreign magic number are refused. -/
theorem decode_of_foreign (long : magic.length ≤ bytes.length) (foreign : bytes.take 4 ≠ magic) :
    decode p bytes = .error (.invalidMagic (bytes.take 4)) := by
  have unmarked : bytes.take 5 ≠ compressedMagic := by
    intro marked
    have front := congrArg (List.take 4) marked
    rw [List.take_take] at front
    exact foreign front
  unfold decode
  rw [if_neg (Nat.not_lt.2 long), if_neg unmarked, if_neg foreign]

/-- Plain bytes that are not too many are read as they are. -/
theorem decode_of_version (plain : version ≠ 0x5A)
    (small : (magic ++ version :: entries).length ≤ Limits.snapshotBytes) :
    decode p (magic ++ version :: entries) = decodePlain p (magic ++ version :: entries) := by
  have unmarked : (magic ++ version :: entries).take 5 ≠ compressedMagic := by
    simp [magic, compressedMagic, plain]
  unfold decode
  rw [if_neg (by simp), if_neg unmarked, if_pos (take_magic _), if_neg (Nat.not_lt.2 small)]

/-! ### Versions and digests -/

/-- Another version is refused before anything else is looked at. -/
theorem decodePlain_of_version (foreign : version ≠ formatVersion) :
    decodePlain p (magic ++ version :: entries) = .error (.unsupportedVersion version) := by
  have outside : version < oldestFormatVersion ∨ formatVersion < version := by
    simp only [UInt8.lt_iff_toNat_lt, ne_eq, ← UInt8.toNat_inj, oldestFormatVersion, formatVersion] at foreign ⊢
    omega
  unfold decodePlain
  rw [if_neg (by simp), if_neg (by simp [take_magic]), drop_magic]
  exact if_pos outside

theorem headed_append (content rest : List UInt8) :
    headed content ++ rest = magic ++ formatVersion :: (content ++ rest) := by
  simp [headed]

theorem length_digest (digest : Digest) : digest.toList.length = digestBytes := Vector.length_toList

/-- What the digest at the end of some bytes covers. -/
def covered (bytes : List UInt8) : List UInt8 := bytes.take (bytes.length - digestBytes)

theorem covered_append {digest : List UInt8} (length : digest.length = digestBytes) (bytes : List UInt8) :
    covered (bytes ++ digest) = bytes := by
  unfold covered
  rw [List.length_append, length, Nat.add_sub_cancel, List.take_left]

/-- Behind a header of the format the digest decides, and only then the entries are looked at. -/
theorem decodePlain_headed {digest : List UInt8} (length : digest.length = digestBytes) :
    decodePlain p (headed content ++ digest) =
      if (p.digest (headed content)).toList ≠ digest then .error .checksumMismatch else decodeBody content := by
  have parts := headed_append content digest
  have front : (headed content ++ digest).length - digestBytes = (headed content).length := by
    rw [List.length_append, length, Nat.add_sub_cancel]
  have behind : (content ++ digest).length - digestBytes = content.length := by
    rw [List.length_append, length, Nat.add_sub_cancel]
  unfold decodePlain
  rw [if_neg (by simp [headed]), if_neg (by simp [parts, take_magic]), parts, drop_magic]
  simp only [← parts, front, behind, List.take_left, List.drop_left]
  rw [if_neg (by decide), if_neg (by simp [length])]

theorem decode_headed {digest : List UInt8} (small : (headed content ++ digest).length ≤ Limits.snapshotBytes) :
    decode p (headed content ++ digest) = decodePlain p (headed content ++ digest) := by
  rw [headed_append] at small ⊢
  exact decode_of_version (by decide) small

/-- A digest that does not fit is refused. -/
theorem decode_of_digest {digest : List UInt8} (length : digest.length = digestBytes)
    (small : (headed content ++ digest).length ≤ Limits.snapshotBytes)
    (broken : (p.digest (headed content)).toList ≠ digest) :
    decode p (headed content ++ digest) = .error .checksumMismatch := by
  rw [decode_headed small, decodePlain_headed length, if_pos broken]

theorem decodePlain_sealed (p : Primitives) (content : List UInt8) :
    decodePlain p (sealed p content) = decodeBody content :=
  (decodePlain_headed (length_digest _)).trans (if_neg (by simp))

theorem decode_sealed (small : (sealed p content).length ≤ Limits.snapshotBytes) :
    decode p (sealed p content) = decodeBody content :=
  (decode_headed small).trans (decodePlain_sealed p content)

end Snapshot

end ClassLedger
