import ClassLedger.Proofs.Wire.Reading
import ClassLedger.Proofs.Wire.Writing

/-!
# Collections of collections

A codec is a write that appends the form of a value and a read that gets the value back from that form, whatever stands
behind it.  The collections of what a codec takes, within a limit for writing and one for reading, have a codec again
(`Codec.list`), so lists of lists to any depth are read as they were written.
-/

namespace ClassLedger.Wire

/-- A write and a read of the same form, for the values that the codec takes. -/
structure Codec (α : Type) where
  write : α → Write Buffer Unit
  read : Read Slice α
  form : α → List UInt8
  Takes : α → Prop
  write_eq : ∀ {x : α}, Takes x → ∀ b, write x b = .ok () (b.append (form x))
  read_eq : ∀ {x : α} {s t : Slice}, Takes x → s.Over (form x) t → read s = .ok x t

/-- The limits and the names of a collection for its write and for its read. -/
structure Level where
  writeLimit : Nat
  writeField : String
  readLimit : Nat
  readField : String

namespace Codec

variable {α : Type} (c : Codec α) {x : α} {xs : List α}

/-- The values that are written whole and read back are those that fit both. -/
def ofForm {write : α → Write Buffer Unit} {read : Read Slice α} {form : α → List UInt8} {fits : α → Prop}
    {measures : α → List Measure} (writes : ∀ x, Writes (write x) (form x) (fits x))
    (reads : Reads read form measures) : Codec α where
  write
  read
  form
  Takes x := fits x ∧ ∀ m ∈ measures x, m.Within
  write_eq takes b := (writes _ b _).2 ⟨takes.1, rfl⟩
  read_eq takes path := reads.eq_ok_iff.2 ⟨path, takes.2⟩

def string (field : String) : Codec String :=
  have writes (s : String) : Writes (writeString s field) (stringForm s) (s.utf8ByteSize ≤ Limits.prefixValue) :=
    writes_string
  ofForm writes (reads_string field)

/-- What was written is read back in front of any other bytes. -/
theorem read_written (takes : c.Takes x) : ∃ bytes, written (c.write x) = .ok bytes ∧
    ∀ more, c.read (.ofList (bytes ++ more)) = .ok x ⟨more, bytes.length⟩ := by
  refine ⟨c.form x, ?_, fun more => c.read_eq takes (Slice.over_ofList_iff.2 ⟨rfl, rfl⟩)⟩
  unfold written
  rw [c.write_eq takes]
  simp

/-! ### Collections -/

theorem writeItems_eq (takes : ∀ x ∈ xs, c.Takes x) (b : Buffer) :
    writeItems c.write xs b = .ok () (b.append (xs.flatMap c.form)) := by
  induction xs generalizing b with
  | nil =>
    rw [List.flatMap_nil, Buffer.append_nil]
    rfl
  | cons x xs ih =>
    obtain ⟨first, others⟩ := List.forall_mem_cons.1 takes
    show (c.write x >>= fun _ => writeItems c.write xs) b = _
    rw [bind_of_eq_ok (c.write_eq first b), ih others, Buffer.append_append, List.flatMap_cons]

theorem readItems_eq (takes : ∀ x ∈ xs, c.Takes x) (before : List α) {s t : Slice}
    (path : s.Over (xs.flatMap c.form) t) :
    readItems c.read xs.length before s = .ok (before.reverse ++ xs) t := by
  induction xs generalizing before s with
  | nil =>
    obtain rfl := Slice.over_nil_iff.1 path
    rw [List.append_nil]
    rfl
  | cons x xs ih =>
    obtain ⟨first, others⟩ := List.forall_mem_cons.1 takes
    rw [List.flatMap_cons] at path
    obtain ⟨u, ahead, behind⟩ := Slice.over_append_iff.1 path
    -- what was read goes onto `before`, which has its last item first
    show (c.read >>= fun y => readItems c.read xs.length (y :: before)) s = _
    rw [bind_of_eq_ok (c.read_eq first ahead), ih others (x :: before) behind, List.reverse_cons, List.append_assoc,
      List.singleton_append]

theorem writeCollection_eq (takes : ∀ x ∈ xs, c.Takes x) (limit : Nat) (field : String) (b : Buffer) :
    writeCollection xs limit field c.write b =
      if min limit Limits.prefixValue < xs.length then
        .error (.lengthExceedsLimit field xs.length (min limit Limits.prefixValue)) b
      else .ok () (b.append (listForm c.form xs)) := by
  have length := writeLength_buffer xs.length limit field b
  unfold writeCollection
  by_cases beyond : min limit Limits.prefixValue < xs.length
  · rw [if_pos beyond] at length ⊢
    exact bind_of_eq_error length
  · rw [if_neg beyond] at length ⊢
    rw [bind_of_eq_ok length, c.writeItems_eq takes, Buffer.append_append]
    rfl

theorem readCollection_eq (takes : ∀ x ∈ xs, c.Takes x) (fits : xs.length ≤ Limits.prefixValue) (limit : Nat)
    (field : String) {s t : Slice} (path : s.Over (listForm c.form xs) t) :
    readCollection limit field c.read s =
      if limit < xs.length then .error (.lengthExceedsLimit field xs.length limit) (s.skip 4) else .ok xs t := by
  obtain ⟨u, before, behind⟩ := Slice.over_append_iff.1 path
  have length := readLength_of_over limit field before fits
  have place : u = s.skip 4 := before.eq_skip
  unfold readCollection
  by_cases beyond : limit < xs.length
  · rw [if_pos beyond, place] at length
    rw [if_pos beyond]
    exact bind_of_eq_error length
  · rw [if_neg beyond] at length ⊢
    rw [bind_of_eq_ok length]
    exact c.readItems_eq takes [] behind

/-- The codec of the collections within both limits. -/
def list (level : Level) : Codec (List α) where
  write xs := writeCollection xs level.writeLimit level.writeField c.write
  read := readCollection level.readLimit level.readField c.read
  form := listForm c.form
  Takes xs := xs.length ≤ min level.writeLimit Limits.prefixValue ∧ xs.length ≤ level.readLimit ∧ ∀ x ∈ xs, c.Takes x
  write_eq takes b := by
    obtain ⟨within, -, items⟩ := takes
    rw [c.writeCollection_eq items, if_neg (Nat.not_lt.2 within)]
  read_eq takes path := by
    obtain ⟨fits, within, items⟩ := takes
    rw [c.readCollection_eq items (Nat.le_trans fits (Nat.min_le_right _ _)) _ _ path, if_neg (Nat.not_lt.2 within)]

end Codec

/-- Lists of lists, one level inside the other. -/
def Nested (α : Type) : List Level → Type
  | [] => α
  | _ :: inner => List (Nested α inner)

namespace Codec

variable {α : Type}

/-- The codec of nested collections, the outermost level first. -/
def nested (c : Codec α) : (levels : List Level) → Codec (Nested α levels)
  | [] => c
  | level :: inner => (c.nested inner).list level

/-- A collection whose number of items is beyond the limit or what four bytes hold is not written, and the buffer stays
as it was.  Otherwise the number and the forms of the items are appended, and where these bytes stand, a read with any
limit gets the items and stops behind them, or is refused behind the four bytes of the number.  So the collections
within both limits have a codec, and nested ones are read back at any depth. -/
theorem collection_characterized (c : Codec α) (level : Level) {xs : List α} (takes : ∀ x ∈ xs, c.Takes x) :
    let write := writeCollection xs level.writeLimit level.writeField c.write
    let most := min level.writeLimit Limits.prefixValue
    (∀ b, ((∃ e u, write b = .error e u) ↔ most < xs.length) ∧
      ∀ e u, write b = .error e u → e = .lengthExceedsLimit level.writeField xs.length most ∧ u = b) ∧
    (∀ b u, write b = .ok () u → ∃ count : Int32,
      count.toInt = xs.length ∧ u = b.append (bigEndian count ++ xs.flatMap c.form) ∧
      ∀ s t : Slice, s.Over (bigEndian count ++ xs.flatMap c.form) t →
        readCollection level.readLimit level.readField c.read s =
          if xs.length ≤ level.readLimit then .ok xs t
          else .error (.lengthExceedsLimit level.readField xs.length level.readLimit) (s.skip 4)) ∧
    (∃ d : Codec (List α),
      (d.write = fun ys => writeCollection ys level.writeLimit level.writeField c.write) ∧
      d.read = readCollection level.readLimit level.readField c.read ∧
      ∀ ys, d.Takes ys ↔ ys.length ≤ most ∧ ys.length ≤ level.readLimit ∧ ∀ y ∈ ys, c.Takes y) ∧
    ∀ (levels : List Level) (x : Nested α levels), (c.nested levels).Takes x →
      ∃ bytes, written ((c.nested levels).write x) = .ok bytes ∧
        ∀ more, (c.nested levels).read (.ofList (bytes ++ more)) = .ok x ⟨more, bytes.length⟩ := by
  intro write most
  have outcome (b : Buffer) : write b =
      if most < xs.length then .error (.lengthExceedsLimit level.writeField xs.length most) b
      else .ok () (b.append (listForm c.form xs)) :=
    c.writeCollection_eq takes level.writeLimit level.writeField b
  refine ⟨fun b => ?_, fun b u done => ?_, ⟨c.list level, rfl, rfl, fun ys => Iff.rfl⟩,
    fun levels x within => (c.nested levels).read_written within⟩
  · by_cases beyond : most < xs.length
    · rw [outcome, if_pos beyond]
      refine ⟨⟨fun _ => beyond, fun _ => ⟨_, _, rfl⟩⟩, fun e u refused => ?_⟩
      obtain ⟨rfl, rfl⟩ := EStateM.Result.error.inj refused
      exact ⟨rfl, rfl⟩
    · rw [outcome, if_neg beyond]
      exact ⟨⟨nofun, fun h => absurd h beyond⟩, nofun⟩
  · rw [outcome] at done
    split at done
    · cases done
    · rename_i within
      have fits : xs.length ≤ Limits.prefixValue := Nat.le_trans (Nat.not_lt.1 within) (Nat.min_le_right _ _)
      obtain ⟨-, rfl⟩ := EStateM.Result.ok.inj done
      refine ⟨.ofNat xs.length, toInt_ofNat_of_fits fits, rfl, fun s t path => ?_⟩
      rw [c.readCollection_eq takes fits level.readLimit level.readField path]
      by_cases beyond : level.readLimit < xs.length
      · rw [if_pos beyond, if_neg (Nat.not_le.2 beyond)]
      · rw [if_neg beyond, if_pos (Nat.not_lt.1 beyond)]

/-- Two lists of strings, the second one empty, and what limits of a single item make of them. -/
theorem collection_characterized_nested :
    let text := Codec.string "data1"
    let level : Level := ⟨5000000000, "data1", 2, "data1"⟩
    let write := writeCollection ["a", "é"] 1 "data1" text.write
    (∃ e, write .empty = .error e .empty) ∧
    (readCollection 1 "data1" text.read ⟨[0, 0, 0, 2, 0, 0, 0, 1, 97, 0, 0, 0, 2, 195, 169, 7], 3⟩ =
      .error (.lengthExceedsLimit "data1" 2 1) ⟨[0, 0, 0, 1, 97, 0, 0, 0, 2, 195, 169, 7], 7⟩) ∧
    ∃ bytes, written ((text.nested [level, level]).write [["a", "é"], []]) = .ok bytes ∧
      (text.nested [level, level]).read (.ofList (bytes ++ [7])) = .ok [["a", "é"], []] ⟨[7], bytes.length⟩ := by
  intro text level write
  have takes : ∀ s ∈ ["a", "é"], text.Takes s := by
    show ∀ s ∈ ["a", "é"], s.utf8ByteSize ≤ Limits.prefixValue ∧ ∀ m ∈ [stringMeasure "data1" s], m.Within
    decide
  obtain ⟨refused, -, -, nested⟩ := text.collection_characterized ⟨1, "data1", 1, "data1"⟩ takes
  obtain ⟨-, reads, -, -⟩ := text.collection_characterized ⟨2, "data1", 1, "data1"⟩ takes
  refine ⟨?_, ?_, ?_⟩
  · obtain ⟨e, u, error⟩ := (refused .empty).1.2 (by decide)
    obtain ⟨-, rfl⟩ := (refused .empty).2 e u error
    exact ⟨e, error⟩
  · have fits : ¬ min 2 Limits.prefixValue < ["a", "é"].length := by decide
    have done := text.writeCollection_eq takes 2 "data1" .empty
    rw [if_neg fits] at done
    obtain ⟨count, value, -, read⟩ := reads .empty _ done
    obtain rfl : count = 2 := Int32.toInt.inj value
    have form : ["a", "é"].flatMap text.form = [0, 0, 0, 1, 97, 0, 0, 0, 2, 195, 169] := by
      show ["a", "é"].flatMap stringForm = _
      decide +kernel
    rw [read _ ⟨[7], 18⟩ (by rw [form]; exact ⟨by decide, by decide⟩), if_neg (by decide)]
    rfl
  · have within : (text.nested [level, level]).Takes [["a", "é"], []] :=
      ⟨by decide, by decide, List.forall_mem_cons.2 ⟨⟨by decide, by decide, takes⟩,
        List.forall_mem_singleton.2 ⟨by decide, by decide, nofun⟩⟩⟩
    obtain ⟨bytes, done, read⟩ := nested [level, level] [["a", "é"], []] within
    exact ⟨bytes, done, read [7]⟩

end Codec

end ClassLedger.Wire
