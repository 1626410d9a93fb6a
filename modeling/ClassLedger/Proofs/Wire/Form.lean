import ClassLedger.Proofs.Wire.Measure
import ClassLedger.Text.Utf8
import ClassLedger.Wire.Word

/-!
# Byte forms

The bytes that stand for a length, a string and a collection, said without a reader or a writer, and the measures of
the lengths in them.  No length is larger than the number of bytes behind it, so a byte form bounds its own lengths.
-/

namespace ClassLedger.Wire

/-- The four bytes of a length. -/
def lengthForm (length : Nat) : List UInt8 := bigEndian (.ofNat length)

/-- The bytes of a string behind their number. -/
def stringForm (s : String) : List UInt8 := lengthForm s.utf8ByteSize ++ Text.utf8 s

/-- The forms of some items behind their number. -/
def listForm {α : Type} (form : α → List UInt8) (items : List α) : List UInt8 :=
  lengthForm items.length ++ items.flatMap form

/-- The measure of a string. -/
def stringMeasure (field : String) (s : String) : Measure where
  field
  length := s.utf8ByteSize
  limit := Limits.stringBytes

/-- The measures of a list of strings: their number comes before their lengths. -/
def stringsMeasures (field : String) (items : List String) : List Measure :=
  { field, length := items.length, limit := Limits.elements } :: items.map (stringMeasure field)

theorem toInt_ofNat_of_fits {n : Nat} (h : n ≤ Limits.prefixValue) : (Int32.ofNat n).toInt = n := by
  unfold Limits.prefixValue at h
  exact Int32.toInt_ofNat_of_lt (by omega)

@[simp]
theorem length_lengthForm (length : Nat) : (lengthForm length).length = 4 := rfl

@[simp]
theorem length_stringForm (s : String) : (stringForm s).length = 4 + s.utf8ByteSize := by
  simp [stringForm, Text.length_utf8]

theorem length_listForm {α : Type} (form : α → List UInt8) (items : List α) :
    (listForm form items).length = 4 + (items.flatMap form).length := by
  simp [listForm]

/-- A list whose items take up bytes has no more items than bytes. -/
theorem length_le_length_listForm {α : Type} {form : α → List UInt8} {items : List α}
    (h : ∀ x ∈ items, 0 < (form x).length) : items.length ≤ (listForm form items).length := by
  have bound : items.length ≤ (items.flatMap form).length := by
    induction items with
    | nil => simp
    | cons x rest ih =>
      have first := h x List.mem_cons_self
      have others := ih fun y hy => h y (List.mem_cons_of_mem _ hy)
      simp only [List.length_cons, List.flatMap_cons, List.length_append]
      omega
  rw [length_listForm]
  omega

/-- The form of an item is a part of the form of its list. -/
theorem length_form_le_length_listForm {α : Type} {form : α → List UInt8} {items : List α} {x : α}
    (h : x ∈ items) : (form x).length ≤ (listForm form items).length := by
  have part : (form x).length ≤ (items.flatMap form).length :=
    (List.sublist_flatten_of_mem (List.mem_map_of_mem h)).length_le
  rw [length_listForm]
  omega

end ClassLedger.Wire
