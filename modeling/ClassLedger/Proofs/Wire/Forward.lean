import ClassLedger.Proofs.Wire.Reading
import ClassLedger.Record.Codec

/-!
# Reads go forward

A read of a byte string moves over bytes that stand ahead, also where it is refused.  For each read it is said with
which errors it is refused, and how many bytes are used up then (`Spends`): a read of a fixed number of bytes uses up
none, a refused length its four bytes, and a read of several parts what its completed parts used up and what the refused
one did.  So no read goes back, none goes beyond the end, and the reads of fields have no other errors than those of
fields.
-/

namespace ClassLedger

/-- Whether an error is about one field: its bytes end, or its length or its text is refused. -/
def DecodeError.isOfField : DecodeError → Bool
  | invalidText _ | endOfInput _ | negativeLength .. | lengthExceedsLimit .. => true
  | _ => false

namespace Wire

/-! ### Places in a byte string -/

namespace Slice

variable {s t : Slice} {i j : Nat} {bytes : List UInt8}

theorem skip_skip (s : Slice) (i j : Nat) : (s.skip i).skip j = s.skip (i + j) := by
  simp only [skip, List.drop_drop, Nat.add_assoc]

theorem remaining_skip (s : Slice) (i : Nat) : (s.skip i).remaining = s.remaining - i := List.length_drop

theorem skip_inj (h : s.skip i = s.skip j) : i = j := Nat.add_left_cancel (congrArg position h)

theorem Over.length_le (h : s.Over bytes t) : bytes.length ≤ s.remaining := by
  rw [remaining, h.1, List.length_append]
  exact Nat.le_add_right _ _

theorem Over.exists_skip (h : s.Over bytes t) : ∃ i ≤ s.remaining, t = s.skip i :=
  ⟨bytes.length, h.length_le, h.eq_skip⟩

/-- The place `s` lies in the given bytes: what is unread are those of them behind its position. -/
structure IsIn (s : Slice) (bytes : List UInt8) : Prop where
  position_le : s.position ≤ bytes.length
  rest_eq : s.rest = bytes.drop s.position

theorem IsIn.remaining_eq (h : s.IsIn bytes) : s.remaining = bytes.length - s.position := by
  rw [remaining, h.rest_eq, List.length_drop]

theorem IsIn.skip (h : s.IsIn bytes) (ahead : i ≤ s.remaining) : (s.skip i).IsIn bytes where
  position_le := by
    have within := h.position_le
    rw [h.remaining_eq] at ahead
    show s.position + i ≤ bytes.length
    omega
  rest_eq := by
    show s.rest.drop i = bytes.drop (s.position + i)
    rw [h.rest_eq, List.drop_drop]

theorem Over.isIn {ahead : List UInt8} (h : s.Over ahead t) (inside : s.IsIn bytes) : t.IsIn bytes := by
  rw [h.eq_skip]
  exact inside.skip h.length_le

end Slice

/-! ### Refusals -/

/-- With which errors a read is refused at a place, and how many bytes are used up then. -/
abbrev Refusals := Slice → DecodeError → Nat → Prop

/-- A read of a fixed number of bytes uses up none of them. -/
inductive CutShort (count : Nat) (context : String) (s : Slice) : DecodeError → Nat → Prop where
  | intro (short : s.remaining < count) : CutShort count context s (.endOfInput context) 0

/-- A text uses up its bytes only if they are all there. -/
inductive TextRefused (count : Nat) (field : String) (s : Slice) : DecodeError → Nat → Prop where
  | cut (short : s.remaining < count) : TextRefused count field s (.endOfInput field) 0
  | invalid (enough : count ≤ s.remaining) (invalid : Text.ofUtf8? (s.rest.take count) = none) :
    TextRefused count field s (.invalidText field) count

/-- A length uses up its four bytes, unless they are not there. -/
inductive LengthRefused (limit : Nat) (field : String) (s : Slice) : DecodeError → Nat → Prop where
  | cut (short : s.remaining < 4) : LengthRefused limit field s (.endOfInput field) 0
  | negative {value : Int32} {rest : List UInt8} (ahead : s.rest = bigEndian value ++ rest) (neg : value.toInt < 0) :
    LengthRefused limit field s (.negativeLength field value) 4
  | beyond {value : Int32} {rest : List UInt8} (ahead : s.rest = bigEndian value ++ rest) (nonneg : 0 ≤ value.toInt)
    (beyond : limit < value.toInt.toNat) :
    LengthRefused limit field s (.lengthExceedsLimit field value.toInt.toNat limit) 4

/-- What follows a length uses up its own bytes and the four bytes of the length. -/
inductive AfterLength (limit : Nat) (field : String) (body : Nat → Refusals) (s : Slice) :
    DecodeError → Nat → Prop where
  | length {e : DecodeError} {k : Nat} (h : LengthRefused limit field s e k) : AfterLength limit field body s e k
  | body {count : Nat} {e : DecodeError} {k : Nat} (length : readLength limit field s = .ok count (s.skip 4))
    (h : body count (s.skip 4) e k) : AfterLength limit field body s e (4 + k)

/-- The second of two reads uses up its own bytes and those of the first, which was completed. -/
inductive InTurn {α : Type} (read : Read Slice α) (refused : Refusals) (later : α → Refusals) (s : Slice) :
    DecodeError → Nat → Prop where
  | first {e : DecodeError} {k : Nat} (h : refused s e k) : InTurn read refused later s e k
  | second {x : α} {e : DecodeError} {i k : Nat} (done : read s = .ok x (s.skip i)) (h : later x (s.skip i) e k) :
    InTurn read refused later s e (i + k)

/-- A part of an operation. -/
structure Portion where
  {α : Type}
  read : Read Slice α
  refused : Refusals

/-- The first refused part uses up its own bytes and those of the completed parts before it. -/
def FirstRefused : List Portion → Refusals
  | [] => fun _ _ _ => False
  | part :: later => InTurn part.read part.refused fun _ => FirstRefused later

namespace Portion

def int32 (context : String) : Portion := ⟨Input.readInt32 context, CutShort 4 context⟩

def string (field : String) : Portion :=
  ⟨readString field, AfterLength Limits.stringBytes field fun count => TextRefused count field⟩

def collection (limit : Nat) (field : String) (item : Portion) : Portion :=
  ⟨readCollection limit field item.read, AfterLength limit field fun count => FirstRefused (.replicate count item)⟩

/-- The fields of a record. -/
def ofRecord : List Portion :=
  [int32 "kind",
    collection Limits.versionParts "version" (int32 "version"),
    collection Limits.elements "data1" (string "data1"),
    collection Limits.elements "data2" (string "data2"),
    string "extra_string",
    string "package_name",
    int32 "extra_int"]

end Portion

/-! ### Reads with their refusals -/

/-- The read goes over bytes that stand ahead, and is refused just as it is said. -/
structure Spends {α : Type} (read : Read Slice α) (refused : Refusals) : Prop where
  ok : ∀ {s t : Slice} {x : α}, read s = .ok x t → ∃ k ≤ s.remaining, t = s.skip k
  error : ∀ {s t : Slice} {e : DecodeError}, read s = .error e t → ∃ k ≤ s.remaining, t = s.skip k ∧ refused s e k
  eq_error : ∀ {s : Slice} {e : DecodeError} {k : Nat}, refused s e k → read s = .error e (s.skip k)

section

variable {α β : Type} {read : Read Slice α} {next : α → Read Slice β} {refused refused' : Refusals}
  {later : α → Refusals}

theorem Spends.congr (h : Spends read refused) (iff : ∀ s e k, refused s e k ↔ refused' s e k) :
    Spends read refused' where
  ok := h.ok
  error result := by
    obtain ⟨k, ahead, place, reason⟩ := h.error result
    exact ⟨k, ahead, place, (iff _ _ _).1 reason⟩
  eq_error reason := h.eq_error ((iff _ _ _).2 reason)

theorem Spends.error_iff (h : Spends read refused) {s t : Slice} {e : DecodeError} :
    read s = .error e t ↔ ∃ k ≤ s.remaining, t = s.skip k ∧ refused s e k := by
  refine ⟨h.error, ?_⟩
  rintro ⟨k, -, rfl, reason⟩
  exact h.eq_error reason

/-- A read that is never refused. -/
theorem Spends.of_ok (h : ∀ s, ∃ x, ∃ k ≤ s.remaining, read s = .ok x (s.skip k)) : Spends read fun _ _ _ => False where
  ok {s t y} result := by
    obtain ⟨x, k, ahead, done⟩ := h s
    obtain ⟨-, rfl⟩ := EStateM.Result.ok.inj (done.symm.trans result)
    exact ⟨k, ahead, rfl⟩
  error result := by
    obtain ⟨x, k, -, done⟩ := h _
    cases done.symm.trans result
  eq_error := False.elim

theorem spends_pure (x : α) : Spends (pure x) fun _ _ _ => False :=
  .of_ok fun _ => ⟨x, 0, Nat.zero_le _, rfl⟩

theorem spends_throw (e : DecodeError) : Spends (throw e : Read Slice α) fun _ e' k => e' = e ∧ k = 0 where
  ok result := nomatch result
  error result := by
    obtain ⟨rfl, rfl⟩ := throw_eq_error_iff.1 result
    exact ⟨0, Nat.zero_le _, rfl, rfl, rfl⟩
  eq_error := by
    rintro s _ _ ⟨rfl, rfl⟩
    rfl

theorem Spends.isIn_of_eq_ok (h : Spends read refused) {s t : Slice} {x : α} {bytes : List UInt8}
    (result : read s = .ok x t) (inside : s.IsIn bytes) : t.IsIn bytes := by
  obtain ⟨k, ahead, rfl⟩ := h.ok result
  exact inside.skip ahead

theorem Spends.isIn_of_eq_error (h : Spends read refused) {s t : Slice} {e : DecodeError} {bytes : List UInt8}
    (result : read s = .error e t) (inside : s.IsIn bytes) : t.IsIn bytes := by
  obtain ⟨k, ahead, rfl, -⟩ := h.error result
  exact inside.skip ahead

theorem Spends.bind (h : Spends read refused) (h' : ∀ x, Spends (next x) (later x)) :
    Spends (read >>= next) (InTurn read refused later) where
  ok {s t y} result := by
    obtain ⟨x, u, first, second⟩ := bind_eq_ok_iff.1 result
    obtain ⟨i, ahead, rfl⟩ := h.ok first
    obtain ⟨j, ahead', rfl⟩ := (h' x).ok second
    rw [Slice.remaining_skip] at ahead'
    exact ⟨i + j, by omega, Slice.skip_skip s i j⟩
  error {s t e} result := by
    rcases bind_eq_error_iff.1 result with refusal | ⟨x, u, first, second⟩
    · obtain ⟨k, ahead, place, reason⟩ := h.error refusal
      exact ⟨k, ahead, place, .first reason⟩
    · obtain ⟨i, ahead, rfl⟩ := h.ok first
      obtain ⟨k, ahead', rfl, reason⟩ := (h' x).error second
      rw [Slice.remaining_skip] at ahead'
      exact ⟨i + k, by omega, Slice.skip_skip s i k, .second first reason⟩
  eq_error reason := by
    cases reason with
    | first reason => exact bind_of_eq_error (h.eq_error reason)
    | second done reason => rw [bind_of_eq_ok done, (h' _).eq_error reason, Slice.skip_skip]

/-! ### The reads of a byte string -/

theorem spends_bytes (count : Nat) (context : String) :
    Spends (Slice.readBytes count context) (CutShort count context) where
  ok result := (readBytes_eq_ok_iff.1 result).2.exists_skip
  error {s t e} result := by
    rw [Slice.readBytes_eq] at result
    split at result
    · cases result
    · rename_i short
      obtain ⟨rfl, rfl⟩ := EStateM.Result.error.inj result
      exact ⟨0, Nat.zero_le _, rfl, .intro (Nat.not_le.1 short)⟩
  eq_error := by
    rintro s _ _ ⟨short⟩
    exact (Slice.readBytes_eq count context s).trans (if_neg (Nat.not_le.2 short))

theorem spends_int32 (context : String) : Spends (Input.readInt32 context : Read Slice Int32) (CutShort 4 context) where
  ok result := (readInt32_eq_ok_iff.1 result).exists_skip
  error {s t e} result := by
    have result : Slice.readInt32 context s = .error e t := result
    rw [Slice.readInt32_eq] at result
    rcases bind_eq_error_iff.1 result with refusal | ⟨bytes, u, first, second⟩
    · exact (spends_bytes 4 context).error refusal
    · obtain ⟨length, -⟩ := readBytes_eq_ok_iff.1 first
      match bytes, length with
      | [a, b, c, d], _ => cases second
  eq_error {s e k} short := by
    show Slice.readInt32 context s = _
    rw [Slice.readInt32_eq]
    exact bind_of_eq_error ((spends_bytes 4 context).eq_error short)

theorem spends_text (count : Nat) (field : String) :
    Spends (Input.readText count field : Read Slice String) (TextRefused count field) where
  ok result := (readText_eq_ok_iff.1 result).2.exists_skip
  error {s t e} result := by
    rcases bind_eq_error_iff.1 result with refusal | ⟨bytes, u, first, second⟩
    · obtain ⟨k, ahead, place, ⟨short⟩⟩ := (spends_bytes count field).error refusal
      exact ⟨0, ahead, place, .cut short⟩
    · obtain ⟨rfl, path⟩ := readBytes_eq_ok_iff.1 first
      have taken : s.rest.take bytes.length = bytes := by rw [path.1, List.take_left]
      have ahead : bytes.length ≤ s.remaining := path.length_le
      cases invalid : Text.ofUtf8? bytes with
      | some x =>
        rw [invalid] at second
        cases second
      | none =>
        rw [invalid] at second
        obtain ⟨rfl, rfl⟩ := throw_eq_error_iff.1 second
        exact ⟨bytes.length, ahead, path.eq_skip, .invalid ahead (by rw [taken, invalid])⟩
  eq_error := by
    rintro s _ _ (short | ⟨enough, invalid⟩)
    · exact bind_of_eq_error ((spends_bytes count field).eq_error (.intro short))
    · have first : Slice.readBytes count field s = .ok (s.rest.take count) (s.skip count) :=
        (Slice.readBytes_eq count field s).trans (if_pos enough)
      refine (bind_of_eq_ok first).trans ?_
      rw [invalid]
      rfl

theorem spends_length (limit : Nat) (field : String) :
    Spends (readLength limit field : Read Slice Nat) (LengthRefused limit field) where
  ok result := by
    obtain ⟨-, -, path⟩ := readLength_eq_ok result
    exact path.exists_skip
  error {s t e} result := by
    rcases bind_eq_error_iff.1 result with refusal | ⟨value, u, first, second⟩
    · obtain ⟨k, ahead, place, ⟨short⟩⟩ := (spends_int32 field).error refusal
      exact ⟨0, ahead, place, .cut short⟩
    · have path := readInt32_eq_ok_iff.1 first
      obtain rfl : u = s.skip 4 := path.eq_skip
      have ahead : 4 ≤ s.remaining := path.length_le
      split at second
      · rename_i neg
        obtain ⟨rfl, rfl⟩ := throw_eq_error_iff.1 second
        exact ⟨4, ahead, rfl, .negative path.1 neg⟩
      · split at second
        · rename_i nonneg beyond
          obtain ⟨rfl, rfl⟩ := throw_eq_error_iff.1 second
          exact ⟨4, ahead, rfl, .beyond path.1 (Int.not_lt.1 nonneg) beyond⟩
        · cases second
  eq_error {s e k} reason := by
    have read {value : Int32} {rest : List UInt8} (ahead : s.rest = bigEndian value ++ rest) :
        Input.readInt32 field s = .ok value (s.skip 4) :=
      readInt32_eq_ok_iff.2 ⟨by rw [Slice.skip, ahead, List.drop_left' (length_bigEndian value)], rfl⟩
    unfold readLength
    cases reason with
    | cut short => exact bind_of_eq_error ((spends_int32 field).eq_error (.intro short))
    | negative ahead neg =>
      rw [bind_of_eq_ok (read ahead)]
      simp only [neg, ↓reduceIte]
      rfl
    | beyond ahead nonneg beyond =>
      rw [bind_of_eq_ok (read ahead)]
      simp only [Int.not_lt.2 nonneg, beyond, ↓reduceIte]
      rfl

/-! ### Reads of several parts -/

theorem Spends.afterLength {next : Nat → Read Slice β} {body : Nat → Refusals}
    (h : ∀ count, Spends (next count) (body count)) (limit : Nat) (field : String) :
    Spends (readLength limit field >>= next) (AfterLength limit field body) := by
  refine ((spends_length limit field).bind h).congr fun s e k => ⟨fun reason => ?_, fun reason => ?_⟩
  · cases reason with
    | first reason => exact .length reason
    | second done reason =>
      -- however many bytes a completed length is said to take, they are its four
      obtain ⟨-, -, path⟩ := readLength_eq_ok done
      obtain rfl := Slice.skip_inj path.eq_skip
      exact .body done reason
  · cases reason with
    | length reason => exact .first reason
    | body done reason => exact .second done reason

theorem spends_string (field : String) :
    Spends (readString field) (AfterLength Limits.stringBytes field fun count => TextRefused count field) :=
  .afterLength (fun count => spends_text count field) Limits.stringBytes field

theorem Spends.items (h : Spends read refused) (count : Nat) (before : List α) :
    Spends (readItems read count before) (FirstRefused (.replicate count ⟨read, refused⟩)) := by
  induction count generalizing before with
  | zero => exact spends_pure before.reverse
  | succ count ih =>
    -- the item that is read next is the first of the parts that are left
    exact h.bind fun x => ih (x :: before)

theorem Spends.collection (h : Spends read refused) (limit : Nat) (field : String) :
    Spends (readCollection limit field read)
      (AfterLength limit field fun count => FirstRefused (.replicate count ⟨read, refused⟩)) :=
  .afterLength (fun count => h.items count []) limit field

theorem spends_record : Spends (Record.read : Read Slice Record) (FirstRefused Portion.ofRecord) := by
  have strings (field : String) := (spends_string field).collection Limits.elements field
  refine (spends_int32 _).bind fun kind => ?_
  refine ((spends_int32 _).collection _ _).bind fun version => ?_
  refine (strings _).bind fun payload => ?_
  refine (strings _).bind fun table => ?_
  refine (spends_string _).bind fun extraText => ?_
  refine (spends_string _).bind fun packageName => ?_
  exact (spends_int32 _).bind fun extraFlags => spends_pure _

end

/-! ### Errors of fields -/

/-- The part is refused with errors of fields only. -/
def Portion.OfField (part : Portion) : Prop := ∀ ⦃s e k⦄, part.refused s e k → e.isOfField

theorem LengthRefused.isOfField {limit : Nat} {field : String} {s : Slice} {e : DecodeError} {k : Nat}
    (h : LengthRefused limit field s e k) : e.isOfField := by
  cases h <;> rfl

theorem AfterLength.isOfField {limit : Nat} {field : String} {body : Nat → Refusals} {s : Slice} {e : DecodeError}
    {k : Nat} (h : AfterLength limit field body s e k) (ofBody : ∀ ⦃count s e k⦄, body count s e k → e.isOfField) :
    e.isOfField := by
  cases h with
  | length refused => exact refused.isOfField
  | body length refused => exact ofBody refused

theorem FirstRefused.isOfField {parts : List Portion} (ofParts : ∀ part ∈ parts, part.OfField) {s : Slice}
    {e : DecodeError} {k : Nat} (h : FirstRefused parts s e k) : e.isOfField := by
  induction parts generalizing s k with
  | nil => exact h.elim
  | cons part later ih =>
    obtain ⟨ofPart, ofLater⟩ := List.forall_mem_cons.1 ofParts
    cases h with
    | first refused => exact ofPart refused
    | second done refused => exact ih ofLater refused

namespace Portion

theorem ofField_int32 (context : String) : (int32 context).OfField := by
  rintro s _ _ ⟨short⟩
  rfl

theorem ofField_string (field : String) : (string field).OfField := by
  intro s e k refused
  refine AfterLength.isOfField refused fun count s e k text => ?_
  cases text <;> rfl

theorem OfField.collection {item : Portion} (h : item.OfField) (limit : Nat) (field : String) :
    (collection limit field item).OfField := by
  intro s e k refused
  refine AfterLength.isOfField refused fun count s e k items => ?_
  exact FirstRefused.isOfField (fun part inside => List.eq_of_mem_replicate inside ▸ h) items

theorem ofField_of_mem_ofRecord : ∀ part ∈ ofRecord, part.OfField := by
  have strings (field : String) := (ofField_string field).collection Limits.elements field
  simp only [ofRecord, List.forall_mem_cons]
  exact ⟨ofField_int32 _, (ofField_int32 _).collection _ _, strings _, strings _, ofField_string _, ofField_string _,
    ofField_int32 _, nofun⟩

end Portion

section

variable {s t : Slice} {e : DecodeError} {limit : Nat} {field : String}

theorem isOfField_of_readLength (h : readLength limit field s = .error e t) : e.isOfField := by
  obtain ⟨k, -, -, refused⟩ := (spends_length limit field).error h
  exact refused.isOfField

theorem isOfField_of_readString (h : readString field s = .error e t) : e.isOfField := by
  obtain ⟨k, -, -, refused⟩ := (spends_string field).error h
  exact Portion.ofField_string field refused

theorem isOfField_of_readRecord (h : Record.read s = .error e t) : e.isOfField := by
  obtain ⟨k, -, -, refused⟩ := spends_record.error h
  exact refused.isOfField Portion.ofField_of_mem_ofRecord

end

end Wire

end ClassLedger
