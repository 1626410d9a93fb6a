import ClassLedger.Proofs.Snapshot.Framing
import ClassLedger.Proofs.Wire.Digits

/-!
# What becomes of compressed bytes

Compressed bytes declare how long their content is, and one byte more than that is asked for.  So the content is taken
exactly if the decoder delivers the declared number of bytes and then ends cleanly: a content that is too short or goes
on is noticed by its length, and a break is noticed unless it comes behind the byte that is too much.  Nothing is
assumed of the decoder.
-/

namespace ClassLedger

namespace Delivery

/-! ### What is taken from a delivery -/

/-- All bytes that are delivered. -/
def content : Delivery → List UInt8
  | done => []
  | broken _ => []
  | block bytes next => bytes ++ (next ()).content

/-- The reason for a break behind all bytes; there is none at a clean end. -/
def failure? : Delivery → Option String
  | done => none
  | broken message => some message
  | block _ next => (next ()).failure?

theorem takeOnto_eq {limit : Nat} {got : Array UInt8} {d : Delivery} (room : got.size < limit) :
    d.takeOnto limit got =
      if limit ≤ got.size + d.content.length then .ok ((got.toList ++ d.content).take limit)
      else d.failure?.elim (.ok (got.toList ++ d.content)) .error := by
  induction d generalizing got with
  | done => simp [takeOnto, content, failure?, Nat.not_le.2 room]
  | broken => simp [takeOnto, content, failure?, Nat.not_le.2 room]
  | block piece next ih =>
    have bytes : (got ++ piece.take (limit - got.size)).toList = got.toList ++ piece.take (limit - got.size) :=
      Array.toList_appendList
    have size := congrArg List.length bytes
    rw [Array.length_toList, List.length_append, Array.length_toList, List.length_take] at size
    rw [content, List.length_append]
    unfold takeOnto
    by_cases full : limit - got.size ≤ piece.length
    · -- The block fills what is missing, and nothing behind it is looked at.
      have first : got.toList.take limit = got.toList := List.take_of_length_le (by simpa using Nat.le_of_lt room)
      rw [if_pos (by omega), if_pos (by omega), bytes, List.take_append, Array.length_toList, first,
        List.take_append_of_le_length full]
    · have whole : piece.take (limit - got.size) = piece := List.take_of_length_le (by omega)
      rw [whole] at bytes size ⊢
      have longer : (got ++ piece).size = got.size + piece.length := by omega
      rw [if_neg (by omega), ih () (by omega), bytes, List.append_assoc, longer, Nat.add_assoc]
      rfl

/-- The first bytes are taken if there are as many, else all of them, but not if they are broken off. -/
theorem take_eq {limit : Nat} {d : Delivery} (room : 0 < limit) : d.take limit =
    if limit ≤ d.content.length then .ok (d.content.take limit) else d.failure?.elim (.ok d.content) .error := by
  have taken := takeOnto_eq (d := d) (show (#[] : Array UInt8).size < limit from room)
  simpa [take] using taken

end Delivery

namespace Snapshot

open Wire

variable {p : Primitives} {bytes body frames : List UInt8} {n capacity : Nat} {e : DecodeError} {d : Delivery}
  {message : String}

/-! ### The declared number of bytes -/

theorem inflateDeclared_of_error (h : p.inflate (min n capacity) (n + 1) frames = .error message) :
    inflateDeclared p n capacity frames = .error (.decompressionFailed message) := by
  unfold inflateDeclared
  rw [h]
  rfl

/-- What is taken from a delivery tells whether it has the declared number of bytes. -/
theorem inflateDeclared_of_ok (h : p.inflate (min n capacity) (n + 1) frames = .ok d) :
    inflateDeclared p n capacity frames =
      if n + 1 ≤ d.content.length then .error (.sizeMismatch n (n + 1))
      else d.failure?.elim
        (if d.content.length = n then .ok d.content else .error (.sizeMismatch n d.content.length))
        fun message => .error (.decompressionFailed message) := by
  have taken : p.inflate (min n capacity) (n + 1) frames >>= Delivery.take (n + 1) = d.take (n + 1) := by
    rw [h]
    rfl
  unfold inflateDeclared
  rw [taken, Delivery.take_eq (Nat.succ_pos n)]
  by_cases more : n + 1 ≤ d.content.length
  · have length : (d.content.take (n + 1)).length = n + 1 := List.length_take_of_le more
    simp only [more, ↓reduceIte, length]
    exact if_neg (Nat.succ_ne_self n)
  · cases clean : d.failure? <;> simp [more]

/-- The content is taken that has the declared length and ends there. -/
theorem inflateDeclared_eq_ok_iff : inflateDeclared p n capacity frames = .ok bytes ↔
    ∃ d, p.inflate (min n capacity) (n + 1) frames = .ok d ∧ d.content = bytes ∧ bytes.length = n ∧
      d.failure? = none := by
  cases offered : p.inflate (min n capacity) (n + 1) frames with
  | error => simp [inflateDeclared_of_error offered]
  | ok d =>
    simp only [inflateDeclared_of_ok offered, Except.ok.injEq, exists_eq_left']
    cases d.failure? <;> grind

/-- A mismatch is a clean end too early, or the byte that is too much. -/
theorem inflateDeclared_eq_sizeMismatch_iff {declared m : Nat} :
    inflateDeclared p n capacity frames = .error (.sizeMismatch declared m) ↔ declared = n ∧
      ∃ d, p.inflate (min n capacity) (n + 1) frames = .ok d ∧
        (d.failure? = none ∧ d.content.length = m ∧ m < n ∨ n + 1 ≤ d.content.length ∧ m = n + 1) := by
  cases offered : p.inflate (min n capacity) (n + 1) frames with
  | error => simp [inflateDeclared_of_error offered]
  | ok d =>
    simp only [inflateDeclared_of_ok offered, Except.ok.injEq, exists_eq_left']
    cases d.failure? <;> grind

/-- A break is noticed up to the end of the declared bytes. -/
theorem inflateDeclared_eq_failed_iff :
    inflateDeclared p n capacity frames = .error (.decompressionFailed message) ↔
      p.inflate (min n capacity) (n + 1) frames = .error message ∨
        ∃ d, p.inflate (min n capacity) (n + 1) frames = .ok d ∧ d.failure? = some message ∧
          d.content.length < n + 1 := by
  cases offered : p.inflate (min n capacity) (n + 1) frames with
  | error => simp [inflateDeclared_of_error offered]
  | ok d =>
    simp only [inflateDeclared_of_ok offered, Except.ok.injEq, exists_eq_left', reduceCtorEq, false_or]
    cases d.failure? <;> grind

/-! ### The declaration -/

/-- The body of compressed bytes declares the length `n` of the content, and the frames stand behind that. -/
def Declares (body : List UInt8) (n : Nat) (frames : List UInt8) : Prop :=
  ∃ size t, Slice.readVarint "uncompressed_size" (.ofList body) = .ok size t ∧ size.toNat = n ∧ t.rest = frames

theorem Declares.decompressBody_eq (h : Declares body n frames) : decompressBody p body =
    if Limits.snapshotBytes < n then .error (.lengthExceedsLimit "uncompressed_size" n Limits.snapshotBytes)
    else inflateDeclared p n (4 * body.length) frames := by
  obtain ⟨size, t, read, rfl, rfl⟩ := h
  rw [decompressBody, read]

theorem decompressBody_of_error {t : Slice}
    (h : Slice.readVarint "uncompressed_size" (.ofList body) = .error e t) : decompressBody p body = .error e := by
  rw [decompressBody, h]

/-- A length is declared, or the integer that it is read from is refused. -/
theorem exists_declares_or (body : List UInt8) : (∃ n frames, Declares body n frames) ∨
    ∃ e t, Slice.readVarint "uncompressed_size" (.ofList body) = .error e t ∧
      e ∈ [.endOfInput "uncompressed_size", .varintOverflow, .varintTooLong] := by
  cases read : Slice.readVarint "uncompressed_size" (.ofList body) with
  | ok size t => exact .inl ⟨_, _, size, t, read, rfl, rfl⟩
  | error e t => exact .inr ⟨e, t, rfl, Slice.error_of_readVarint read⟩

theorem decompressBody_eq_lengthExceedsLimit_iff {field : String} {limit : Nat} :
    decompressBody p body = .error (.lengthExceedsLimit field n limit) ↔
      field = "uncompressed_size" ∧ limit = Limits.snapshotBytes ∧ Limits.snapshotBytes < n ∧
        ∃ frames, Declares body n frames := by
  constructor
  · intro refused
    rcases exists_declares_or body with ⟨n', frames, declares⟩ | ⟨e, t, read, reason⟩
    · rw [declares.decompressBody_eq] at refused
      split at refused
      · rename_i large
        obtain ⟨rfl, rfl, rfl⟩ := DecodeError.lengthExceedsLimit.inj (Except.error.inj refused)
        exact ⟨rfl, rfl, large, frames, declares⟩
      · unfold inflateDeclared at refused
        split at refused
        · cases refused
        · split at refused <;> cases refused
    · obtain rfl := Except.error.inj ((decompressBody_of_error read).symm.trans refused)
      simp at reason
  · rintro ⟨rfl, rfl, large, frames, declares⟩
    rw [declares.decompressBody_eq, if_pos large]

/-- What is none of the errors about the declaration comes from the frames. -/
theorem decompressBody_eq_iff {result : Except DecodeError (List UInt8)}
    (declared : ∀ n, result ≠ .error (.lengthExceedsLimit "uncompressed_size" n Limits.snapshotBytes))
    (readable : ∀ e ∈ [DecodeError.endOfInput "uncompressed_size", .varintOverflow, .varintTooLong], result ≠ .error e) :
    decompressBody p body = result ↔ ∃ n frames, Declares body n frames ∧ n ≤ Limits.snapshotBytes ∧
      inflateDeclared p n (4 * body.length) frames = result := by
  constructor
  · intro outcome
    rcases exists_declares_or body with ⟨n, frames, declares⟩ | ⟨e, t, read, reason⟩
    · rw [declares.decompressBody_eq] at outcome
      split at outcome
      · exact absurd outcome.symm (declared n)
      · exact ⟨n, frames, declares, Nat.not_lt.1 ‹_›, outcome⟩
    · exact absurd (outcome.symm.trans (decompressBody_of_error read)) (readable e reason)
  · rintro ⟨n, frames, declares, small, outcome⟩
    rw [declares.decompressBody_eq, if_neg (Nat.not_lt.2 small), outcome]

/-! ### Compressed bytes -/

/-- Frames inside frames are not taken out of each other. -/
theorem decodePlain_marked (p : Primitives) (body : List UInt8) :
    decodePlain p (compressedMagic ++ body) = .error (.unsupportedVersion 0x5A) :=
  decodePlain_of_version (by decide)

theorem decompress_of_unmarked (unmarked : ¬ compressedMagic <+: bytes) : decompress p bytes =
    .error (if bytes.length < compressedMagic.length then .endOfInput "magic" else .invalidMagic (bytes.take 4)) := by
  have other : bytes.take 5 ≠ compressedMagic := fun same => unmarked (List.prefix_iff_eq_take.2 same.symm)
  unfold decompress
  by_cases short : bytes.length < compressedMagic.length
  · rw [if_pos short, if_pos short]
  · rw [if_neg short, if_pos other, if_neg short]

/-- Compressed bytes have their content taken exactly if its declared length is allowed and the decoder delivers just
so many bytes and then ends cleanly.  A clean end too early and one byte too many are a mismatch, whatever comes behind
that byte; a decoder that does not start or breaks before it is a failed one, with the reason that it gives, and a length
is refused exactly beyond the limit.  A snapshot is read from what was taken as from plain bytes, so frames inside of frames are an unknown version,
and bytes with another magic number are not taken apart. -/
theorem decompress_characterized (p : Primitives) :
    (∀ body,
      let input := compressedMagic ++ body
      let delivery (n : Nat) (frames : List UInt8) := p.inflate (min n (4 * body.length)) (n + 1) frames
      (∀ bytes, decompress p input = .ok bytes ↔ ∃ n frames d, Declares body n frames ∧ n ≤ Limits.snapshotBytes ∧
        delivery n frames = .ok d ∧ d.content = bytes ∧ bytes.length = n ∧ d.failure? = none) ∧
      (∀ n m, decompress p input = .error (.sizeMismatch n m) ↔ ∃ frames d, Declares body n frames ∧
        n ≤ Limits.snapshotBytes ∧ delivery n frames = .ok d ∧
          (d.failure? = none ∧ d.content.length = m ∧ m < n ∨ n + 1 ≤ d.content.length ∧ m = n + 1)) ∧
      (∀ message, decompress p input = .error (.decompressionFailed message) ↔ ∃ n frames, Declares body n frames ∧
        n ≤ Limits.snapshotBytes ∧ (delivery n frames = .error message ∨
          ∃ d, delivery n frames = .ok d ∧ d.failure? = some message ∧ d.content.length < n + 1)) ∧
      (∀ field n limit, decompress p input = .error (.lengthExceedsLimit field n limit) ↔
        field = "uncompressed_size" ∧ limit = Limits.snapshotBytes ∧ Limits.snapshotBytes < n ∧
          ∃ frames, Declares body n frames) ∧
      (∀ e t, Slice.readVarint "uncompressed_size" (.ofList body) = .error e t → decompress p input = .error e) ∧
      decode p input = decompress p input >>= decodePlain p ∧
      ∀ inner, decompress p input = .ok (compressedMagic ++ inner) →
        decode p input = .error (.unsupportedVersion 0x5A)) ∧
    ∀ bytes, ¬ compressedMagic <+: bytes → decompress p bytes =
      .error (if bytes.length < compressedMagic.length then .endOfInput "magic" else .invalidMagic (bytes.take 4)) := by
  refine ⟨fun body => ?_, fun bytes => decompress_of_unmarked⟩
  have read := decode_marked p body
  simp only [← decompress_marked p body] at read
  refine ⟨?_, ?_, ?_, ?_, ?_, read, ?_⟩
  · intro bytes
    rw [decompress_marked, decompressBody_eq_iff (by simp) (by simp)]
    simp only [inflateDeclared_eq_ok_iff, exists_and_left]
  · intro n m
    rw [decompress_marked, decompressBody_eq_iff (by simp) (by simp)]
    simp only [inflateDeclared_eq_sizeMismatch_iff]
    constructor
    · rintro ⟨n, frames, declares, small, rfl, d, offered⟩
      exact ⟨frames, d, declares, small, offered⟩
    · rintro ⟨frames, d, declares, small, offered⟩
      exact ⟨n, frames, declares, small, rfl, d, offered⟩
  · intro message
    rw [decompress_marked, decompressBody_eq_iff (by simp) (by simp)]
    simp only [inflateDeclared_eq_failed_iff]
  · intro field n limit
    rw [decompress_marked]
    exact decompressBody_eq_lengthExceedsLimit_iff
  · intro e t refused
    rw [decompress_marked]
    exact decompressBody_of_error refused
  · intro inner taken
    rw [read, taken]
    exact decodePlain_marked p inner

/-- Three bytes are delivered before a break.  It is not noticed if two are declared, but if three are. -/
theorem decompress_characterized_break :
    let p : Primitives :=
      { digest := fun _ => .replicate 32 0, deflate := fun _ _ => .error "no compressor",
        inflate := fun _ _ frames => .ok (.block frames fun _ => .broken "checksum") }
    decompress p (compressedMagic ++ [2, 7, 8, 9]) = .error (.sizeMismatch 2 3) ∧
    decompress p (compressedMagic ++ [3, 7, 8, 9]) = .error (.decompressionFailed "checksum") ∧
    decompress p magic = .error (.endOfInput "magic") := by
  intro p
  obtain ⟨compressed, others⟩ := decompress_characterized p
  refine ⟨?_, ?_, others magic (by decide)⟩
  · obtain ⟨-, mismatch, -⟩ := compressed [2, 7, 8, 9]
    exact (mismatch 2 3).2 ⟨[7, 8, 9], _, ⟨2, ⟨[7, 8, 9], 1⟩, rfl, rfl, rfl⟩, by decide, rfl, .inr ⟨by decide, rfl⟩⟩
  · obtain ⟨-, -, failed, -⟩ := compressed [3, 7, 8, 9]
    exact (failed "checksum").2 ⟨3, [7, 8, 9], ⟨3, ⟨[7, 8, 9], 1⟩, rfl, rfl, rfl⟩, by decide, .inr ⟨_, rfl, rfl, by decide⟩⟩

end Snapshot

end ClassLedger
