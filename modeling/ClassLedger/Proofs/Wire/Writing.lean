import ClassLedger.Proofs.Wire.Form
import ClassLedger.Wire.Buffer

/-!
# What writing into memory gives

A write appends the form of its value, or fails because a length does not fit (`Writes`).
-/

namespace ClassLedger.Wire

namespace Buffer

theorem append_nil (b : Buffer) : b.append [] = b := by simp [append]

theorem append_append (b : Buffer) (bytes bytes' : List UInt8) :
    (b.append bytes).append bytes' = b.append (bytes ++ bytes') := by
  unfold append
  congr 1
  apply Array.toList_inj.1
  simp

end Buffer

/-- The write appends `bytes` to a buffer where `fits` holds, and fails otherwise. -/
def Writes (write : Write Buffer Unit) (bytes : List UInt8) (fits : Prop) : Prop :=
  ∀ b u, write b = .ok () u ↔ fits ∧ u = b.append bytes

theorem written_eq_ok_iff {write : Write Buffer Unit} {bytes : List UInt8} {fits : Prop}
    (h : Writes write bytes fits) {out : List UInt8} : written write = .ok out ↔ fits ∧ out = bytes := by
  unfold written
  constructor
  · intro done
    split at done
    · rename_i u ok
      obtain ⟨holds, rfl⟩ := (h _ _).1 ok
      obtain rfl := Except.ok.inj done
      exact ⟨holds, by simp⟩
    · cases done
  · rintro ⟨holds, rfl⟩
    rw [(h .empty _).2 ⟨holds, rfl⟩]
    simp

section

variable {write write' : Write Buffer Unit} {bytes bytes' : List UInt8} {fits fits' : Prop} {field : String}

theorem Writes.congr (h : Writes write bytes fits) (iff : fits ↔ fits') : Writes write bytes fits' := by
  intro b u
  rw [h, iff]

/-- Two writes one after the other. -/
theorem Writes.seq (h : Writes write bytes fits) (h' : Writes write' bytes' fits') :
    Writes (do write; write') (bytes ++ bytes') (fits ∧ fits') := by
  intro b u
  show EStateM.bind write (fun _ => write') b = _ ↔ _
  unfold EStateM.bind
  constructor
  · intro done
    split at done
    · rename_i v ok
      obtain ⟨holds, rfl⟩ := (h _ _).1 ok
      obtain ⟨holds', rfl⟩ := (h' _ _).1 done
      exact ⟨⟨holds, holds'⟩, by rw [Buffer.append_append]⟩
    · cases done
  · rintro ⟨⟨holds, holds'⟩, rfl⟩
    rw [(h b _).2 ⟨holds, rfl⟩, ← Buffer.append_append]
    exact (h' _ _).2 ⟨holds', rfl⟩

theorem writes_bytes : Writes (Output.writeBytes bytes field) bytes True := by
  intro b u
  show EStateM.Result.ok () (b.append bytes) = .ok () u ↔ _
  simp [eq_comm]

theorem writes_int32 {value : Int32} : Writes (writeInt32 value field) (bigEndian value) True := writes_bytes

/-- A length that does not fit leaves the buffer as it was. -/
theorem writeLength_buffer (length limit : Nat) (field : String) (b : Buffer) :
    writeLength length limit field b =
      if min limit Limits.prefixValue < length then
        .error (.lengthExceedsLimit field length (min limit Limits.prefixValue)) b
      else .ok () (b.append (lengthForm length)) := by
  unfold writeLength
  by_cases beyond : min limit Limits.prefixValue < length
  · simp only [beyond, ↓reduceIte]
    rfl
  · simp only [beyond, ↓reduceIte]
    rfl

theorem writes_length {length limit : Nat} :
    Writes (writeLength length limit field) (lengthForm length) (length ≤ min limit Limits.prefixValue) := by
  intro b u
  rw [writeLength_buffer]
  by_cases beyond : min limit Limits.prefixValue < length
  · rw [if_pos beyond]
    exact ⟨nofun, fun ⟨le, _⟩ => absurd le (Nat.not_le.2 beyond)⟩
  · rw [if_neg beyond]
    simp only [Nat.not_lt.1 beyond, true_and, EStateM.Result.ok.injEq, eq_comm]

theorem writes_string {s : String} :
    Writes (writeString s field) (stringForm s) (s.utf8ByteSize ≤ Limits.prefixValue) := by
  have length : Writes (writeLength (Text.utf8 s).length Limits.prefixValue field) _ _ := writes_length
  exact (length.seq writes_bytes).congr (by simp [Text.length_utf8])

variable {α : Type} {item : α → Write Buffer Unit} {form : α → List UInt8} {holds : α → Prop}

theorem writes_items (h : ∀ x, Writes (item x) (form x) (holds x)) (items : List α) :
    Writes (writeItems item items) (items.flatMap form) (∀ x ∈ items, holds x) := by
  induction items with
  | nil =>
    intro b u
    show EStateM.Result.ok () b = .ok () u ↔ _
    simp [Buffer.append_nil, eq_comm]
  | cons x rest ih => exact ((h x).seq ih).congr List.forall_mem_cons.symm

theorem writes_collection (h : ∀ x, Writes (item x) (form x) (holds x)) (items : List α) (limit : Nat) :
    Writes (writeCollection items limit field item) (listForm form items)
      (items.length ≤ min limit Limits.prefixValue ∧ ∀ x ∈ items, holds x) :=
  writes_length.seq (writes_items h items)

end

end ClassLedger.Wire
