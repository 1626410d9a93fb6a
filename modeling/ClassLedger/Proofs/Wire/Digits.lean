import ClassLedger.Proofs.Wire.Extension
import Mathlib.Algebra.Ring.Nat
import Mathlib.Data.List.Induction

/-!
# Which bytes are a variable-length integer

The first byte without its top bit is the last one of a variable-length integer, and the bytes up to it are its digits
to the base of 128.  At most ten bytes are looked at: where the tenth one adds more than 64 bits hold, or is not the
last one either, there is no integer.  What is read is exactly what the digits are worth, and it is what a reader gets
that sets the bits of a machine word digit by digit (`readBits_eq_readDigits`).
-/

namespace ClassLedger.Wire

/-! ### The worth of digits -/

/-- What bytes are worth as digits to the base of 128: the low seven bits of each, the first one's counting least. -/
def worth (bytes : List UInt8) : Nat := (bytes.mapIdx fun i b => b.toNat % 128 * 128 ^ i).sum

theorem worth_concat (bytes : List UInt8) (last : UInt8) :
    worth (bytes ++ [last]) = worth bytes + last.toNat % 128 * 128 ^ bytes.length := by
  simp [worth, List.mapIdx_append]

theorem worth_lt (bytes : List UInt8) : worth bytes < 128 ^ bytes.length := by
  induction bytes using List.reverseRecOn with
  | nil => decide
  | append_singleton bytes last ih =>
    have digit : last.toNat % 128 + 1 ≤ 128 := Nat.mod_lt _ (by decide)
    have most := Nat.mul_le_mul_right (128 ^ bytes.length) digit
    rw [worth_concat, List.length_append, List.length_singleton, Nat.pow_succ]
    rw [Nat.succ_mul] at most
    omega

/-- Whether a digit behind others may be the last one: only the tenth can be too large. -/
def MayEnd (digits : List UInt8) (last : UInt8) : Prop :=
  digits.length + 1 < Limits.varintBytes ∨ digits.length + 1 = Limits.varintBytes ∧ last.toNat % 128 ≤ 1

section

variable {context : String} {left : Nat} {digits bytes rest : List UInt8} {last : UInt8}

theorem MayEnd.worth_lt (h : MayEnd digits last) : worth (digits ++ [last]) < UInt64.size := by
  unfold MayEnd Limits.varintBytes at h
  rcases h with before | ⟨tenth, small⟩
  · have all := Wire.worth_lt (digits ++ [last])
    have place : 128 ^ (digits ++ [last]).length ≤ 128 ^ 9 := Nat.pow_le_pow_right (by decide) (by simp; omega)
    unfold UInt64.size
    omega
  · have others := Wire.worth_lt digits
    have length : digits.length = 9 := by omega
    rw [worth_concat]
    rw [length] at others ⊢
    unfold UInt64.size
    omega

theorem MayEnd.digit_lt (h : MayEnd digits last) : last.toNat % 128 * 128 ^ digits.length < UInt64.size := by
  have all := h.worth_lt
  rw [worth_concat] at all
  omega

namespace Slice

/-! ### Digit by digit -/

theorem readDigits_cons (context : String) (left weight sum : Nat) (b : UInt8) (rest : List UInt8) (position : Nat) :
    readDigits context (left + 1) weight sum ⟨b :: rest, position⟩ =
      if UInt64.size ≤ b.toNat % 128 * weight then .error .varintOverflow ⟨rest, position + 1⟩
      else if b < 128 then .ok (UInt64.ofNat (sum + b.toNat % 128 * weight)) ⟨rest, position + 1⟩
      else readDigits context left (weight * 128) (sum + b.toNat % 128 * weight) ⟨rest, position + 1⟩ := by
  have byte : readByte context ⟨b :: rest, position⟩ = .ok b ⟨rest, position + 1⟩ := rfl
  rw [readDigits, bind_of_eq_ok byte, UInt64.size]
  by_cases beyond : 18446744073709551616 ≤ b.toNat % 128 * weight
  · simp only [beyond, ↓reduceIte]
    rfl
  · simp only [beyond, ↓reduceIte]
    split <;> rfl

/-- The bytes before the last one are added up as digits, as long as others may follow. -/
theorem readVarint_append (continued : ∀ b ∈ digits, 128 ≤ b) (room : digits.length + (left + 1) = Limits.varintBytes)
    (context : String) (rest : List UInt8) (position : Nat) :
    readVarint context ⟨digits ++ rest, position⟩ =
      readDigits context (left + 1) (128 ^ digits.length) (worth digits) ⟨rest, position + digits.length⟩ := by
  induction digits using List.reverseRecOn generalizing left rest with
  | nil =>
    rw [List.length_nil, Nat.zero_add] at room
    rw [room]
    rfl
  | append_singleton before b ih =>
    obtain ⟨continued, more⟩ := List.forall_mem_append.1 continued
    rw [List.length_append, List.length_singleton] at room ⊢
    have early : MayEnd before b := .inl (by omega)
    rw [List.append_assoc, List.singleton_append, ih continued (show _ + (left + 1 + 1) = _ by omega), readDigits_cons,
      if_neg (Nat.not_le.2 early.digit_lt), if_neg (UInt8.not_lt.2 (more b List.mem_cons_self)), worth_concat]
    rfl

theorem readVarint_of_last (continued : ∀ b ∈ digits, 128 ≤ b) (ends : last < 128) (fits : MayEnd digits last)
    (context : String) (rest : List UInt8) (position : Nat) :
    ∃ n : UInt64, n.toNat = worth (digits ++ [last]) ∧
      readVarint context ⟨digits ++ last :: rest, position⟩ = .ok n ⟨rest, position + (digits.length + 1)⟩ := by
  obtain ⟨left, room⟩ : ∃ left, digits.length + (left + 1) = Limits.varintBytes := by
    refine ⟨Limits.varintBytes - (digits.length + 1), ?_⟩
    rcases fits with before | ⟨tenth, -⟩ <;> omega
  refine ⟨UInt64.ofNat (worth (digits ++ [last])), UInt64.toNat_ofNat_of_lt fits.worth_lt, ?_⟩
  rw [readVarint_append continued room, readDigits_cons, if_neg (Nat.not_le.2 fits.digit_lt), if_pos ends, worth_concat]
  rfl

/-- The tenth byte is refused if it adds too much, whether or not it is the last one. -/
theorem readVarint_of_overflow (continued : ∀ b ∈ digits, 128 ≤ b) (tenth : digits.length + 1 = Limits.varintBytes)
    (large : 1 < last.toNat % 128) (context : String) (rest : List UInt8) (position : Nat) :
    readVarint context ⟨digits ++ last :: rest, position⟩ =
      .error .varintOverflow ⟨rest, position + Limits.varintBytes⟩ := by
  have beyond : UInt64.size ≤ last.toNat % 128 * 128 ^ digits.length := by
    unfold Limits.varintBytes at tenth
    rw [show digits.length = 9 by omega]
    unfold UInt64.size
    omega
  rw [readVarint_append continued tenth, readDigits_cons, if_pos beyond, ← tenth]
  rfl

theorem readVarint_of_endless (continued : ∀ b ∈ digits, 128 ≤ b) (tenth : digits.length + 1 = Limits.varintBytes)
    (small : last.toNat % 128 ≤ 1) (more : 128 ≤ last) (context : String) (rest : List UInt8) (position : Nat) :
    readVarint context ⟨digits ++ last :: rest, position⟩ =
      .error .varintTooLong ⟨rest, position + Limits.varintBytes⟩ := by
  have fits : MayEnd digits last := .inr ⟨tenth, small⟩
  rw [readVarint_append continued tenth, readDigits_cons, if_neg (Nat.not_le.2 fits.digit_lt),
    if_neg (UInt8.not_lt.2 more), ← tenth]
  rfl

theorem readVarint_of_short (continued : ∀ b ∈ bytes, 128 ≤ b) (short : bytes.length < Limits.varintBytes)
    (context : String) (position : Nat) :
    readVarint context ⟨bytes, position⟩ = .error (.endOfInput context) ⟨[], position + bytes.length⟩ := by
  obtain ⟨left, room⟩ : ∃ left, bytes.length + (left + 1) = Limits.varintBytes :=
    ⟨Limits.varintBytes - (bytes.length + 1), by omega⟩
  have read := readVarint_append continued room context [] position
  rw [List.append_nil] at read
  rw [read]
  rfl

/-! ### All bytes there are -/

/-- A last byte is found among the first ones, or a byte stands in the last place without being one, or there are too
few bytes. -/
theorem exists_last_or_short (bytes : List UInt8) (most : Nat) :
    (∃ digits last rest, bytes = digits ++ last :: rest ∧ (∀ b ∈ digits, 128 ≤ b) ∧
      (last < 128 ∧ digits.length < most + 1 ∨ 128 ≤ last ∧ digits.length = most)) ∨
    (∀ b ∈ bytes, 128 ≤ b) ∧ bytes.length < most + 1 := by
  induction most generalizing bytes with
  | zero =>
    cases bytes with
    | nil => exact .inr ⟨nofun, by simp⟩
    | cons b rest =>
      refine .inl ⟨[], b, rest, rfl, nofun, ?_⟩
      rcases UInt8.lt_or_le b 128 with ends | more
      · exact .inl ⟨ends, by simp⟩
      · exact .inr ⟨more, rfl⟩
  | succ most ih =>
    cases bytes with
    | nil => exact .inr ⟨nofun, by simp⟩
    | cons b bytes =>
      rcases UInt8.lt_or_le b 128 with ends | more
      · exact .inl ⟨[], b, bytes, rfl, nofun, .inl ⟨ends, by simp⟩⟩
      · rcases ih bytes with ⟨digits, last, rest, rfl, continued, place⟩ | ⟨continued, short⟩
        · refine .inl ⟨b :: digits, last, rest, rfl, List.forall_mem_cons.2 ⟨more, continued⟩, ?_⟩
          simpa using place
        · exact .inr ⟨List.forall_mem_cons.2 ⟨more, continued⟩, by simpa using short⟩

/-- An integer ends among the first ten bytes, or the tenth one adds too much or is not the last one either, or there
are too few bytes. -/
theorem exists_mayEnd_or (bytes : List UInt8) :
    (∃ digits last rest, bytes = digits ++ last :: rest ∧ (∀ b ∈ digits, 128 ≤ b) ∧
      (last < 128 ∧ MayEnd digits last ∨ digits.length + 1 = Limits.varintBytes ∧
        (1 < last.toNat % 128 ∨ last.toNat % 128 ≤ 1 ∧ 128 ≤ last))) ∨
    (∀ b ∈ bytes, 128 ≤ b) ∧ bytes.length < Limits.varintBytes := by
  rcases exists_last_or_short bytes 9 with ⟨digits, last, rest, rfl, continued, place⟩ | short
  · refine .inl ⟨digits, last, rest, rfl, continued, ?_⟩
    by_cases large : digits.length + 1 = Limits.varintBytes ∧ 1 < last.toNat % 128
    · exact .inr ⟨large.1, .inl large.2⟩
    · have fits : MayEnd digits last := by
        unfold MayEnd Limits.varintBytes at *
        omega
      rcases place with ⟨ends, -⟩ | ⟨more, ninth⟩
      · exact .inl ⟨ends, fits⟩
      · have tenth : digits.length + 1 = Limits.varintBytes := by
          rw [ninth]
          rfl
        exact .inr ⟨tenth, .inr ⟨Nat.not_lt.1 fun less => large ⟨tenth, less⟩, more⟩⟩
  · exact .inr short

/-- At most ten bytes are consumed; either they are worth what is read, or there is no integer. -/
theorem readVarint_outcome (context : String) (s : Slice) :
    ∃ bytes t, s.Over bytes t ∧ bytes.length ≤ Limits.varintBytes ∧
      ((∃ n, readVarint context s = .ok n t ∧ n.toNat = worth bytes) ∨
        ∃ e, readVarint context s = .error e t ∧ e ∈ [.endOfInput context, .varintOverflow, .varintTooLong]) := by
  obtain ⟨bytes, position⟩ := s
  rcases exists_mayEnd_or bytes with ⟨digits, last, rest, rfl, continued, place⟩ | ⟨continued, short⟩
  · have length : (digits ++ [last]).length = digits.length + 1 := by simp
    have path : Over ⟨digits ++ last :: rest, position⟩ (digits ++ [last]) ⟨rest, position + (digits.length + 1)⟩ :=
      ⟨by simp, by rw [length]⟩
    rcases place with ⟨ends, fits⟩ | ⟨tenth, large | ⟨small, more⟩⟩
    · have most : (digits ++ [last]).length ≤ Limits.varintBytes := by
        unfold MayEnd at fits
        omega
      obtain ⟨n, exact, read⟩ := readVarint_of_last continued ends fits context rest position
      exact ⟨_, _, path, most, .inl ⟨n, read, exact⟩⟩
    · have refused := readVarint_of_overflow continued tenth large context rest position
      rw [← tenth] at refused
      exact ⟨_, _, path, Nat.le_of_eq (length.trans tenth), .inr ⟨_, refused, by simp⟩⟩
    · have refused := readVarint_of_endless continued tenth small more context rest position
      rw [← tenth] at refused
      exact ⟨_, _, path, Nat.le_of_eq (length.trans tenth), .inr ⟨_, refused, by simp⟩⟩
  · have path : Over ⟨bytes, position⟩ bytes ⟨[], position + bytes.length⟩ := ⟨(List.append_nil bytes).symm, rfl⟩
    refine ⟨bytes, _, path, Nat.le_of_lt short, .inr ⟨_, ?_, List.mem_cons_self⟩⟩
    exact readVarint_of_short continued short context position

/-- What is read is worth the bytes that were consumed. -/
theorem worth_of_readVarint {s t : Slice} {n : UInt64} (h : readVarint context s = .ok n t) :
    ∃ bytes, s.Over bytes t ∧ bytes.length ≤ Limits.varintBytes ∧ n.toNat = worth bytes := by
  obtain ⟨bytes, u, path, most, ⟨m, read, exact⟩ | ⟨e, refused, -⟩⟩ := readVarint_outcome context s
  · obtain ⟨rfl, rfl⟩ := EStateM.Result.ok.inj (read.symm.trans h)
    exact ⟨bytes, path, most, exact⟩
  · cases refused.symm.trans h

theorem error_of_readVarint {s t : Slice} {e : DecodeError} (h : readVarint context s = .error e t) :
    e ∈ [.endOfInput context, .varintOverflow, .varintTooLong] := by
  obtain ⟨bytes, u, -, -, ⟨m, read, -⟩ | ⟨e', refused, reason⟩⟩ := readVarint_outcome context s
  · cases read.symm.trans h
  · obtain ⟨rfl, -⟩ := EStateM.Result.error.inj (refused.symm.trans h)
    exact reason

/-- What a read gives that stops at `t`. -/
def stopped {α : Type} : Except DecodeError α → Slice → EStateM.Result DecodeError Slice α
  | .ok x, t => .ok x t
  | .error e, t => .error e t

/-- As many bytes as may follow decide what is read, and how many of them are consumed. -/
theorem readDigits_lookahead (context : String) (left weight sum : Nat) (bytes : List UInt8) :
    ∃ result count, count ≤ left ∧ ∀ s : Slice, s.rest.take left = bytes.take left →
      readDigits context left weight sum s = stopped result (s.skip count) := by
  induction left generalizing weight sum bytes with
  | zero => exact ⟨.error .varintTooLong, 0, Nat.le_refl 0, fun s _ => rfl⟩
  | succ left ih =>
    cases bytes with
    | nil =>
      refine ⟨.error (.endOfInput context), 0, Nat.zero_le _, ?_⟩
      rintro ⟨ahead, position⟩ same
      obtain rfl : ahead = [] := by simpa using same
      rfl
    | cons b bytes =>
      have first {s : Slice} (same : s.rest.take (left + 1) = (b :: bytes).take (left + 1)) :
          ∃ rest position, s = ⟨b :: rest, position⟩ ∧ rest.take left = bytes.take left := by
        obtain ⟨ahead, position⟩ := s
        cases ahead with
        | nil => simp at same
        | cons c rest =>
          simp only [List.take_succ_cons, List.cons.injEq] at same
          obtain ⟨rfl, same⟩ := same
          exact ⟨rest, position, rfl, same⟩
      by_cases beyond : UInt64.size ≤ b.toNat % 128 * weight
      · refine ⟨.error .varintOverflow, 1, Nat.le_add_left 1 left, fun s same => ?_⟩
        obtain ⟨rest, position, rfl, -⟩ := first same
        rw [readDigits_cons, if_pos beyond]
        rfl
      · by_cases ends : b < 128
        · refine ⟨.ok (UInt64.ofNat (sum + b.toNat % 128 * weight)), 1, Nat.le_add_left 1 left, fun s same => ?_⟩
          obtain ⟨rest, position, rfl, -⟩ := first same
          rw [readDigits_cons, if_neg beyond, if_pos ends]
          rfl
        · obtain ⟨result, count, less, others⟩ := ih (weight * 128) (sum + b.toNat % 128 * weight) bytes
          refine ⟨result, count + 1, Nat.succ_le_succ less, fun s same => ?_⟩
          obtain ⟨rest, position, rfl, sameBehind⟩ := first same
          rw [readDigits_cons, if_neg beyond, if_neg ends, others ⟨rest, position + 1⟩ sameBehind]
          show stopped result ⟨rest.drop count, position + 1 + count⟩ =
            stopped result ⟨rest.drop count, position + (count + 1)⟩
          rw [Nat.add_assoc, Nat.add_comm 1]

/-! ### Digits in a machine word -/

/-- Reads into a machine word, whose bits before the one at `shift` hold the digits so far. -/
def readBits (context : String) (left shift : Nat) (word : UInt64) : Read Slice UInt64 :=
  match left with
  | 0 => throw .varintTooLong
  | left + 1 => do
    let byte ← readByte context
    let digit := (byte &&& 0x7F).toUInt64
    if 64 ≤ shift ∨ shift = 63 ∧ 1 < digit then throw .varintOverflow
    else
      let word := word ||| digit <<< UInt64.ofNat shift
      if byte &&& 0x80 = 0 then return word
      else readBits context left (shift + 7) word

theorem and_top_eq_zero_iff (b : UInt8) : b &&& 0x80 = 0 ↔ b < 128 := by
  rw [← UInt8.toNat_inj, UInt8.toNat_and, UInt8.lt_iff_toNat_lt]
  exact (by decide +kernel : ∀ n < 256, n &&& 128 = 0 ↔ n < 128) b.toNat b.toNat_lt

theorem toNat_and_digit (b : UInt8) : ((b &&& 0x7F).toUInt64).toNat = b.toNat % 128 := by
  rw [UInt8.toNat_toUInt64, UInt8.toNat_and]
  exact Nat.and_two_pow_sub_one_eq_mod b.toNat 7

/-- The bits of a digit that fits are set by adding the digit in its place. -/
theorem toNat_or_shiftLeft {word digit : UInt64} {i : Nat} (place : i < Limits.varintBytes)
    (below : word.toNat < 128 ^ i) (fits : digit.toNat * 128 ^ i < UInt64.size) :
    (word ||| digit <<< UInt64.ofNat (7 * i)).toNat = word.toNat + digit.toNat * 128 ^ i := by
  unfold Limits.varintBytes at place
  have weight : 128 ^ i = 2 ^ (7 * i) := by rw [Nat.pow_mul]
  rw [weight] at below fits ⊢
  have shift : (UInt64.ofNat (7 * i)).toNat % 64 = 7 * i := by
    rw [UInt64.toNat_ofNat_of_lt' (by unfold UInt64.size; omega)]
    omega
  rw [UInt64.toNat_or, UInt64.toNat_shiftLeft, shift, Nat.shiftLeft_eq, Nat.mod_eq_of_lt fits, Nat.or_comm,
    Nat.mul_comm, ← Nat.two_pow_add_eq_or_of_lt below, Nat.add_comm]

/-- Before the tenth place every digit fits, and in the tenth one only the smallest two do. -/
theorem overflow_iff {i digit : Nat} (place : i < Limits.varintBytes) (small : digit < 128) :
    UInt64.size ≤ digit * 128 ^ i ↔ 64 ≤ 7 * i ∨ 7 * i = 63 ∧ 1 < digit := by
  unfold Limits.varintBytes at place
  by_cases tenth : i = 9
  · subst tenth
    unfold UInt64.size
    omega
  · have weight : 128 ^ i ≤ 128 ^ 8 := Nat.pow_le_pow_right (by decide) (by omega)
    have product := Nat.mul_le_mul (Nat.le_of_lt small) weight
    unfold UInt64.size
    omega

/-- The bits that are set are the sum of the digits, wherever it began. -/
theorem readBits_eq_readDigits (context : String) {left i : Nat} {word : UInt64}
    (room : i + left = Limits.varintBytes) (below : word.toNat < 128 ^ i) :
    readBits context left (7 * i) word = readDigits context left (128 ^ i) word.toNat := by
  induction left generalizing i word with
  | zero => rfl
  | succ left ih =>
    have place : i < Limits.varintBytes := by omega
    unfold readBits readDigits
    refine congrArg (readByte context >>= ·) (funext fun byte => ?_)
    have small : byte.toNat % 128 < 128 := Nat.mod_lt _ (by decide)
    have value := toNat_and_digit byte
    generalize (byte &&& 0x7F).toUInt64 = digit at value ⊢
    have larger : 1 < digit ↔ 1 < byte.toNat % 128 := by
      rw [UInt64.lt_iff_toNat_lt, value]
      rfl
    have overflow := overflow_iff place small
    rw [← larger] at overflow
    by_cases beyond : UInt64.size ≤ byte.toNat % 128 * 128 ^ i
    · simp only [overflow.1 beyond, ↓reduceIte]
      exact (if_pos beyond).symm
    · have sum := toNat_or_shiftLeft place below (by rw [value]; exact Nat.not_le.1 beyond)
      rw [value] at sum
      simp only [mt overflow.2 beyond, and_top_eq_zero_iff, ↓reduceIte]
      refine Eq.trans ?_ (if_neg beyond).symm
      by_cases ends : byte < 128
      · simp only [ends, ↓reduceIte]
        rw [← sum, UInt64.ofNat_toNat]
      · have most : byte.toNat % 128 + 1 ≤ 128 := small
        have next : (word ||| digit <<< UInt64.ofNat (7 * i)).toNat < 128 ^ (i + 1) := by
          have scaled := Nat.mul_le_mul_right (128 ^ i) most
          rw [Nat.succ_mul] at scaled
          rw [sum, Nat.pow_succ']
          omega
        simp only [ends, ↓reduceIte]
        rw [← sum]
        exact ih (by omega) next

/-- The first byte without its top bit is the last one, and what is read is worth the bytes up to it.  The tenth byte
is the last that is looked at: there only the smallest two digits do not overflow, and one with its top bit makes the
integer too long unless it overflows as well.  Bytes that end before that are all consumed.  So ten bytes decide what is
read and how many of them are consumed, nothing of what is read is lost, and a machine word filled bit by bit holds the
same. -/
theorem readVarint_characterized (context : String) (s : Slice) :
    (∀ digits last rest, s.rest = digits ++ last :: rest → (∀ b ∈ digits, 128 ≤ b) →
      (last < 128 → digits.length + 1 < Limits.varintBytes ∨ digits.length + 1 = Limits.varintBytes ∧ last ≤ 1 →
        ∃ n : UInt64, n.toNat = worth (digits ++ [last]) ∧
          readVarint context s = .ok n ⟨rest, s.position + (digits.length + 1)⟩) ∧
      (last < 128 → 1 < last → digits.length + 1 = Limits.varintBytes →
        readVarint context s = .error .varintOverflow ⟨rest, s.position + Limits.varintBytes⟩) ∧
      (128 ≤ last → digits.length + 1 = Limits.varintBytes →
        readVarint context s = .error (if 1 < last.toNat % 128 then .varintOverflow else .varintTooLong)
          ⟨rest, s.position + Limits.varintBytes⟩)) ∧
    ((∀ b ∈ s.rest, 128 ≤ b) → s.rest.length < Limits.varintBytes →
      readVarint context s = .error (.endOfInput context) ⟨[], s.position + s.rest.length⟩) ∧
    (∃ result count, count ≤ Limits.varintBytes ∧ ∀ t : Slice,
      t.rest.take Limits.varintBytes = s.rest.take Limits.varintBytes →
        readVarint context t = stopped result (t.skip count)) ∧
    (∀ n t, readVarint context s = .ok n t →
      ∃ bytes, s.Over bytes t ∧ bytes.length ≤ Limits.varintBytes ∧ n.toNat = worth bytes) ∧
    readVarint context s = readBits context Limits.varintBytes 0 0 s := by
  obtain ⟨bytes, position⟩ := s
  refine ⟨?_, ?_, ?_, fun n t => worth_of_readVarint, ?_⟩
  · rintro digits last rest rfl continued
    have one : (1 : UInt8).toNat = 1 := rfl
    refine ⟨fun ends place => ?_, fun ends large tenth => ?_, fun more tenth => ?_⟩
    · rw [UInt8.lt_iff_toNat_lt] at ends
      refine readVarint_of_last continued ends (place.imp_right (.imp_right fun least => ?_)) context rest position
      rw [UInt8.le_iff_toNat_le, one] at least
      omega
    · rw [UInt8.lt_iff_toNat_lt] at ends large
      have digit : last.toNat % 128 = last.toNat := Nat.mod_eq_of_lt ends
      exact readVarint_of_overflow continued tenth (by rw [digit]; exact large) context rest position
    · by_cases large : 1 < last.toNat % 128
      · rw [if_pos large]
        exact readVarint_of_overflow continued tenth large context rest position
      · rw [if_neg large]
        exact readVarint_of_endless continued tenth (Nat.not_lt.1 large) more context rest position
  · intro continued short
    exact readVarint_of_short continued short context position
  · exact readDigits_lookahead context Limits.varintBytes 1 0 bytes
  · exact (congrFun (readBits_eq_readDigits context (Nat.zero_add _) (show (0 : UInt64).toNat < 128 ^ 0 by decide)) _).symm

/-- The largest number, one with zero digits behind it, and what the tenth byte and the end can refuse. -/
theorem readVarint_characterized_largest :
    readVarint "size" ⟨List.replicate 9 0xFF ++ 0x01 :: [7], 3⟩ = .ok 18446744073709551615 ⟨[7], 13⟩ ∧
    readVarint "size" ⟨[0x85, 0x80] ++ 0x00 :: [7], 0⟩ = .ok 5 ⟨[7], 3⟩ ∧
    readVarint "size" ⟨List.replicate 9 0x80 ++ 0x02 :: [7], 0⟩ = .error .varintOverflow ⟨[7], 10⟩ ∧
    readVarint "size" ⟨List.replicate 9 0x80 ++ 0x81 :: [7], 0⟩ = .error .varintTooLong ⟨[7], 10⟩ ∧
    readVarint "size" ⟨[0x80, 0x80], 0⟩ = .error (.endOfInput "size") ⟨[], 2⟩ := by
  refine ⟨?_, ?_, ?_, ?_, ?_⟩
  · obtain ⟨n, value, read⟩ := ((readVarint_characterized "size" ⟨List.replicate 9 0xFF ++ 0x01 :: [7], 3⟩).1 _ _ _ rfl
      (by simp)).1 (by decide) (by decide)
    rw [read, show n = 18446744073709551615 from UInt64.toNat_inj.1 (value.trans (by decide))]
    rfl
  · obtain ⟨n, value, read⟩ := ((readVarint_characterized "size" ⟨[0x85, 0x80] ++ 0x00 :: [7], 0⟩).1 _ _ _ rfl
      (by simp)).1 (by decide) (by decide)
    rw [read, show n = 5 from UInt64.toNat_inj.1 (value.trans (by decide))]
    rfl
  · exact ((readVarint_characterized "size" ⟨_, 0⟩).1 _ _ _ rfl (by simp)).2.1 (by decide) (by decide) (by decide)
  · exact ((readVarint_characterized "size" ⟨_, 0⟩).1 _ _ _ rfl (by simp)).2.2 (by decide) (by decide)
  · exact (readVarint_characterized "size" ⟨[0x80, 0x80], 0⟩).2.1 (by simp) (by decide)

end Slice

end

end ClassLedger.Wire
