import ClassLedger.Payload.Field
import ClassLedger.Proofs.Wire.Varint

/-!
# Fields are read back

Any fields written one behind the other are read as these fields, without an error.  A tag and a flag word come back
from their numbers.
-/

namespace ClassLedger

open Wire

@[simp]
theorem Tag.ofNumber?_number (tag : Tag) : ofNumber? tag.number = some tag := by
  cases tag <;> rfl

namespace Field

/-- The bytes of a field. -/
def form (f : Field) : List UInt8 := varint f.tag.toNat ++ varint f.value.toNat

/-! ### Sequences of fields -/

private theorem readVarint_of_over_toNat {context : String} {s t : Slice} {n : UInt64}
    (path : s.Over (varint n.toNat) t) : Slice.readVarint context s = .ok n t := by
  rw [Slice.readVarint_of_over path n.toNat_lt, UInt64.ofNat_toNat]

theorem read_of_over {f : Field} {s t : Slice} (path : s.Over f.form t) : read s = .ok f t := by
  obtain ⟨u, tag, value⟩ := Slice.over_append_iff.1 path
  unfold read
  rw [bind_of_eq_ok (readVarint_of_over_toNat tag), bind_of_eq_ok (readVarint_of_over_toNat value)]
  rfl

theorem form_ne_nil (f : Field) : f.form ≠ [] := by
  intro empty
  exact varint_ne_nil _ (List.append_eq_nil_iff.1 empty).1

section

variable {before : List Field} {s t : Slice}

theorem readAll_of_isEmpty (whole : s.isEmpty) : readAll before s = (before.reverse, none) := by
  rw [readAll, if_pos whole]

theorem readAll_of_eq_ok {f : Field} (more : ¬ s.isEmpty) (ok : read s = .ok f t) :
    readAll before s = readAll (f :: before) t := by
  rw [readAll, if_neg more]
  split
  · rename_i g u ok'
    obtain ⟨rfl, rfl⟩ := EStateM.Result.ok.inj (ok.symm.trans ok')
    rfl
  · rename_i failed
    cases ok.symm.trans failed

theorem readAll_of_eq_error {e : DecodeError} (more : ¬ s.isEmpty) (failed : read s = .error e t) :
    readAll before s = (before.reverse, some e) := by
  rw [readAll, if_neg more]
  split
  · rename_i ok
    cases failed.symm.trans ok
  · rename_i failed'
    obtain ⟨rfl, -⟩ := EStateM.Result.error.inj (failed.symm.trans failed')
    rfl

end

theorem readAll_of_over {before fields : List Field} {s t : Slice} (path : s.Over (fields.flatMap form) t)
    (whole : t.isEmpty) : readAll before s = (before.reverse ++ fields, none) := by
  induction fields generalizing before s with
  | nil =>
    obtain rfl := Slice.over_nil_iff.1 path
    rw [readAll_of_isEmpty whole, List.append_nil]
  | cons f rest ih =>
    obtain ⟨u, first, others⟩ := Slice.over_append_iff.1 path
    have more : ¬ s.isEmpty := by
      rw [Slice.isEmpty, first.1, List.isEmpty_iff, List.append_eq_nil_iff]
      exact fun empty => f.form_ne_nil empty.1
    rw [readAll_of_eq_ok more (read_of_over first), ih others, List.reverse_cons, List.append_assoc,
      List.singleton_append]

theorem ofBytes_form (fields : List Field) : ofBytes (fields.flatMap form) = (fields, none) := by
  have path : (Slice.ofList (fields.flatMap form)).Over (fields.flatMap form)
      ⟨[], (fields.flatMap form).length⟩ := Slice.over_ofList_iff.2 (by simp)
  exact readAll_of_over path rfl

/-! ### Values -/

theorem flags_word (tag : UInt64) (word : Int32) : flags ⟨tag, word.toUInt32.toUInt64⟩ = .ok word := by
  unfold flags
  have small := word.toUInt32.toNat_lt
  rw [if_pos (by simpa using small)]
  simp

/-- The place of a string in a table refers to it, if the table has not more places than 64 bits can tell apart. -/
theorem string_idxOf {table : List String} (small : table.length ≤ UInt64.size) (tag : UInt64) {s : String}
    (h : s ∈ table) : string ⟨tag, .ofNat (table.idxOf s)⟩ table.toArray = .ok s := by
  have less := List.idxOf_lt_length_of_mem h
  have place : (UInt64.ofNat (table.idxOf s)).toNat = table.idxOf s :=
    UInt64.toNat_ofNat_of_lt (Nat.lt_of_lt_of_le less small)
  have there : table.toArray[table.idxOf s]? = some s := by
    rw [List.getElem?_toArray, List.getElem?_eq_getElem less, List.getElem_idxOf]
  unfold string
  simp only [place]
  rw [there]

/-- What refers to a string refers to it in every longer table. -/
theorem string_append {f : Field} {strings : Array String} {s : String} (h : f.string strings = .ok s)
    (more : Array String) : f.string (strings ++ more) = .ok s := by
  unfold string at h ⊢
  split at h
  · rename_i found
    rw [Array.getElem?_append_left (Array.getElem?_eq_some_iff.1 found).1, found]
    exact h
  · cases h

end Field

end ClassLedger
