import ClassLedger.Proofs.Wire.Digits
import ClassLedger.Proofs.Wire.Forward

/-!
# What a refused read has used up

A caller may go on after a refusal, so it matters where a refused read leaves a byte string.  Whatever a caller does
(`Operation`), it is said with which errors it is refused and how many bytes are used up then (`Operation.Refused`).
Hence the place in a byte string never goes back and never beyond the end, whatever is read and refused
(`consumption_characterized`).
-/

namespace ClassLedger.Wire

/-! ### Single bytes and integers of variable length -/

theorem spends_byte (context : String) : Spends (Slice.readByte context) (CutShort 1 context) where
  ok {s t b} result := by
    obtain ⟨rest, position⟩ := s
    cases rest with
    | nil => cases result
    | cons b rest =>
      obtain ⟨-, rfl⟩ := EStateM.Result.ok.inj result
      exact ⟨1, Nat.le_add_left 1 _, rfl⟩
  error {s t e} result := by
    obtain ⟨rest, position⟩ := s
    cases rest with
    | nil =>
      obtain ⟨rfl, rfl⟩ := EStateM.Result.error.inj result
      exact ⟨0, Nat.le_refl 0, rfl, .intro Nat.zero_lt_one⟩
    | cons b rest => cases result
  eq_error := by
    rintro ⟨rest, position⟩ _ _ ⟨short⟩
    obtain rfl := List.length_eq_zero_iff.1 (Nat.lt_one_iff.1 short)
    rfl

/-- An integer of variable length uses up what was looked at: all bytes if they end too early, else those up to the
tenth. -/
inductive VarintRefused (context : String) (s : Slice) : DecodeError → Nat → Prop where
  | cut (goOn : ∀ b ∈ s.rest, 128 ≤ b) (short : s.remaining < Limits.varintBytes) :
    VarintRefused context s (.endOfInput context) s.remaining
  | overflow {digits : List UInt8} {last : UInt8} {rest : List UInt8} (ahead : s.rest = digits ++ last :: rest)
    (goOn : ∀ b ∈ digits, 128 ≤ b) (tenth : digits.length + 1 = Limits.varintBytes) (large : 1 < last.toNat % 128) :
    VarintRefused context s .varintOverflow (digits.length + 1)
  | tooLong {digits : List UInt8} {last : UInt8} {rest : List UInt8} (ahead : s.rest = digits ++ last :: rest)
    (goOn : ∀ b ∈ digits, 128 ≤ b) (tenth : digits.length + 1 = Limits.varintBytes) (small : last.toNat % 128 ≤ 1)
    (more : 128 ≤ last) : VarintRefused context s .varintTooLong (digits.length + 1)

theorem Slice.skip_digits (digits : List UInt8) (last : UInt8) (rest : List UInt8) (position : Nat) :
    Slice.skip ⟨digits ++ last :: rest, position⟩ (digits.length + 1) = ⟨rest, position + (digits.length + 1)⟩ := by
  have path : Slice.Over ⟨digits ++ last :: rest, position⟩ (digits ++ [last]) ⟨rest, position + (digits.length + 1)⟩ :=
    ⟨by simp, by simp⟩
  simpa using path.eq_skip.symm

theorem spends_varint (context : String) : Spends (Slice.readVarint context) (VarintRefused context) where
  ok result := by
    obtain ⟨bytes, path, -⟩ := Slice.worth_of_readVarint result
    exact path.exists_skip
  error {s t e} result := by
    obtain ⟨bytes, position⟩ := s
    rcases Slice.exists_mayEnd_or bytes with ⟨digits, last, rest, rfl, goOn, place⟩ | ⟨goOn, short⟩
    · have ahead : digits.length + 1 ≤ (digits ++ last :: rest).length := by simp
      refine ⟨digits.length + 1, ahead, ?_⟩
      rw [Slice.skip_digits]
      rcases place with ⟨ends, fits⟩ | ⟨tenth, large | ⟨small, more⟩⟩
      · obtain ⟨n, -, read⟩ := Slice.readVarint_of_last goOn ends fits context rest position
        cases read.symm.trans result
      · rw [Slice.readVarint_of_overflow goOn tenth large, ← tenth] at result
        obtain ⟨rfl, rfl⟩ := EStateM.Result.error.inj result
        exact ⟨rfl, .overflow rfl goOn tenth large⟩
      · rw [Slice.readVarint_of_endless goOn tenth small more, ← tenth] at result
        obtain ⟨rfl, rfl⟩ := EStateM.Result.error.inj result
        exact ⟨rfl, .tooLong rfl goOn tenth small more⟩
    · rw [Slice.readVarint_of_short goOn short] at result
      obtain ⟨rfl, rfl⟩ := EStateM.Result.error.inj result
      exact ⟨bytes.length, Nat.le_refl _, by simp [Slice.skip], .cut goOn short⟩
  eq_error {s e k} reason := by
    obtain ⟨bytes, position⟩ := s
    cases reason with
    | cut goOn short =>
      rw [Slice.readVarint_of_short goOn short]
      simp [Slice.skip, Slice.remaining]
    | overflow ahead goOn tenth large =>
      obtain rfl := ahead
      rw [Slice.readVarint_of_overflow goOn tenth large, Slice.skip_digits, ← tenth]
    | tooLong ahead goOn tenth small more =>
      obtain rfl := ahead
      rw [Slice.readVarint_of_endless goOn tenth small more, Slice.skip_digits, ← tenth]

/-! ### Reads that are not refused -/

section

variable {α : Type} {read : Read Slice α} {refused : Refusals}

theorem spends_get : Spends (get : Read Slice Slice) fun _ _ _ => False :=
  .of_ok fun s => ⟨s, 0, Nat.zero_le _, rfl⟩

/-- A read that goes on after every refusal. -/
def tried (read : Read Slice α) : Read Slice (Except DecodeError α) := fun s =>
  match read s with
  | .ok x t => .ok (.ok x) t
  | .error e t => .ok (.error e) t

theorem Spends.tried (h : Spends read refused) : Spends (tried read) fun _ _ _ => False := by
  refine .of_ok fun s => ?_
  unfold Wire.tried
  cases result : read s with
  | ok x t =>
    obtain ⟨k, ahead, rfl⟩ := h.ok result
    exact ⟨.ok x, k, ahead, rfl⟩
  | error e t =>
    obtain ⟨k, ahead, rfl, -⟩ := h.error result
    exact ⟨.error e, k, ahead, rfl⟩

end

/-! ### Operations one after the other -/

/-- What a caller may do with a byte string: the reads that it offers, with a read of items made of other operations and
of looks at the place, the values and the errors so far. -/
inductive Operation : Type → Type 1 where
  | byte (context : String) : Operation UInt8
  /-- Some bytes, whether or not their number is known beforehand. -/
  | bytes (count : Nat) (context : String) : Operation (List UInt8)
  | varint (context : String) : Operation UInt64
  | int32 (context : String) : Operation Int32
  | text (count : Nat) (field : String) : Operation String
  | length (limit : Nat) (field : String) : Operation Nat
  | string (field : String) : Operation String
  | collection {α : Type} (limit : Nat) (field : String) (item : Operation α) : Operation (List α)
  | record : Operation Record
  /-- A look at the place and the unread bytes. -/
  | look : Operation Slice
  | value {α : Type} (x : α) : Operation α
  | refusal {α : Type} (e : DecodeError) : Operation α
  | andThen {α β : Type} (first : Operation α) (next : α → Operation β) : Operation β
  | attempt {α : Type} (operation : Operation α) : Operation (Except DecodeError α)

namespace Operation

def run {α : Type} : Operation α → Read Slice α
  | byte context => Slice.readByte context
  | bytes count context => Slice.readBytes count context
  | varint context => Slice.readVarint context
  | int32 context => Input.readInt32 context
  | text count field => Input.readText count field
  | length limit field => readLength limit field
  | string field => readString field
  | collection limit field item => readCollection limit field item.run
  | record => Record.read
  | look => get
  | value x => pure x
  | refusal e => throw e
  | andThen first next => first.run >>= fun x => (next x).run
  | attempt operation => tried operation.run

/-- When the operation is refused, and what is used up then. -/
def Refused {α : Type} : Operation α → Refusals
  | byte context => CutShort 1 context
  | bytes count context => CutShort count context
  | varint context => VarintRefused context
  | int32 context => CutShort 4 context
  | text count field => TextRefused count field
  | length limit field => LengthRefused limit field
  | string field => (Portion.string field).refused
  | collection limit field item => (Portion.collection limit field ⟨item.run, item.Refused⟩).refused
  | record => FirstRefused Portion.ofRecord
  | look | value _ | attempt _ => fun _ _ _ => False
  | refusal e => fun _ e' k => e' = e ∧ k = 0
  | andThen first next => InTurn first.run first.Refused fun x => (next x).Refused

theorem spends {α : Type} (operation : Operation α) : Spends operation.run operation.Refused := by
  induction operation with
  | byte context => exact spends_byte context
  | bytes count context => exact spends_bytes count context
  | varint context => exact spends_varint context
  | int32 context => exact spends_int32 context
  | text count field => exact spends_text count field
  | length limit field => exact spends_length limit field
  | string field => exact spends_string field
  | collection limit field item ih => exact ih.collection limit field
  | record => exact spends_record
  | look => exact spends_get
  | value x => exact spends_pure x
  | refusal e => exact spends_throw e
  | andThen first next ih ih' => exact ih.bind ih'
  | attempt operation ih => exact ih.tried

/-- The place at which the operation leaves a byte string. -/
def stop {α : Type} (operation : Operation α) (s : Slice) : Slice :=
  match operation.run s with
  | .ok _ t | .error _ t => t

theorem stop_eq_skip {α : Type} (operation : Operation α) (s : Slice) :
    ∃ k ≤ s.remaining, operation.stop s = s.skip k := by
  unfold stop
  cases result : operation.run s with
  | ok x t => exact operation.spends.ok result
  | error e t =>
    obtain ⟨k, ahead, place, -⟩ := operation.spends.error result
    exact ⟨k, ahead, place⟩

/-- The places from `s` on, at which the operations begin and the last one ends, whatever was refused. -/
def places : List (Sigma Operation) → Slice → List Slice
  | [], s => [s]
  | ⟨_, operation⟩ :: later, s => s :: places later (operation.stop s)

variable {bytes : List UInt8} {operations : List (Sigma Operation)} {s t : Slice}

theorem isIn_of_mem_places (inside : s.IsIn bytes) (h : t ∈ places operations s) :
    t.IsIn bytes ∧ s.position ≤ t.position := by
  induction operations generalizing s with
  | nil =>
    obtain rfl := List.mem_singleton.1 h
    exact ⟨inside, Nat.le_refl _⟩
  | cons first later ih =>
    rcases List.mem_cons.1 h with rfl | behind
    · exact ⟨inside, Nat.le_refl _⟩
    · obtain ⟨k, ahead, place⟩ := first.2.stop_eq_skip s
      rw [place] at behind
      obtain ⟨inside, later⟩ := ih (inside.skip ahead) behind
      exact ⟨inside, Nat.le_trans (Nat.le_add_right _ k) later⟩

theorem pairwise_places (inside : s.IsIn bytes) (operations : List (Sigma Operation)) :
    (places operations s).Pairwise fun t u => t.position ≤ u.position := by
  induction operations generalizing s with
  | nil => exact List.pairwise_singleton _ _
  | cons first later ih =>
    obtain ⟨k, ahead, place⟩ := first.2.stop_eq_skip s
    have next : (first.2.stop s).IsIn bytes := place ▸ inside.skip ahead
    refine List.pairwise_cons.2 ⟨fun t behind => ?_, ih next⟩
    rw [place] at behind
    have onward := (isIn_of_mem_places (inside.skip ahead) behind).2
    exact Nat.le_trans (Nat.le_add_right _ k) onward

/-- Whatever is done with a byte string and refused, its place never goes back nor beyond the end, and what is unread
are the bytes behind it.  An operation is refused just when it is said, with just that error, and uses up just that many
bytes of those that are left. -/
theorem consumption_characterized (bytes : List UInt8) (operations : List (Sigma Operation)) :
    (∀ s ∈ places operations (.ofList bytes), s.position ≤ bytes.length ∧ s.rest = bytes.drop s.position ∧
      s.remaining = bytes.length - s.position) ∧
    (places operations (.ofList bytes)).Pairwise (fun s t => s.position ≤ t.position) ∧
    ∀ {α : Type} (operation : Operation α) (s t : Slice) (e : DecodeError),
      operation.run s = .error e t ↔ ∃ k ≤ s.remaining, t = s.skip k ∧ operation.Refused s e k := by
  have start : (Slice.ofList bytes).IsIn bytes := ⟨Nat.zero_le _, rfl⟩
  refine ⟨fun s visited => ?_, pairwise_places start operations, fun operation s t e => operation.spends.error_iff⟩
  obtain ⟨inside, -⟩ := isIn_of_mem_places start visited
  exact ⟨inside.position_le, inside.rest_eq, inside.remaining_eq⟩

/-- A collection with a damaged second string, a read beyond the end and an integer that is cut off. -/
theorem consumption_characterized_damaged :
    let bytes : List UInt8 := [0, 0, 0, 2, 0, 0, 0, 2, 97, 98, 0, 0, 0, 1, 255, 128, 129]
    let strings : Operation (List String) := .collection 9 "data1" (.string "data1")
    let operations : List (Sigma Operation) := [⟨_, strings⟩, ⟨_, .bytes 3 "size"⟩, ⟨_, .varint "size"⟩]
    (places operations (.ofList bytes)).map Slice.position = [0, 15, 15, 17] ∧
    (∀ s ∈ places operations (.ofList bytes), s.position ≤ 17) ∧
    strings.Refused (.ofList bytes) (.invalidText "data1") 15 := by
  intro bytes strings operations
  obtain ⟨inside, -, refused⟩ := consumption_characterized bytes operations
  refine ⟨by rfl, fun s visited => (inside s visited).1, ?_⟩
  have result : strings.run (.ofList bytes) = .error (.invalidText "data1") ⟨[128, 129], 15⟩ := by rfl
  obtain ⟨k, -, place, reason⟩ := (refused strings _ _ _).1 result
  obtain rfl : k = 15 := by
    have position := congrArg Slice.position place
    rwa [Slice.skip, Slice.ofList, Nat.zero_add, eq_comm] at position
  exact reason

end Operation

end ClassLedger.Wire
