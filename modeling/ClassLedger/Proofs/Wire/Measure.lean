import ClassLedger.Error
import ClassLedger.Limits

/-!
# Measured lengths

Every length on the wire stands in front of a string or a collection and belongs to a field.  A reader refuses a
length beyond the limit of its field, a writer only one that four bytes do not hold.  The measures of a value, in the
order in which its lengths are written, decide both: a reader stops at the first one beyond its limit
(`firstBeyond`).
-/

namespace ClassLedger.Wire

/-- A length as it stands on the wire, with the field it belongs to and the most that a reader takes. -/
structure Measure where
  field : String
  length : Nat
  limit : Nat
  limit_le : limit ≤ Limits.prefixValue := by decide

namespace Measure

/-- Whether a reader takes the length. -/
def Within (m : Measure) : Prop := m.length ≤ m.limit

instance (m : Measure) : Decidable m.Within := inferInstanceAs (Decidable (_ ≤ _))

/-- Whether four bytes hold the length. -/
def Fits (m : Measure) : Prop := m.length ≤ Limits.prefixValue

/-- The error of a reader that does not take the length. -/
def refusal (m : Measure) : DecodeError := .lengthExceedsLimit m.field m.length m.limit

theorem Within.fits {m : Measure} (h : m.Within) : m.Fits := Nat.le_trans h m.limit_le

end Measure

/-- The first measure beyond its limit. -/
def firstBeyond (measures : List Measure) : Option Measure := measures.find? fun m => m.limit < m.length

theorem firstBeyond_eq_none_iff {measures : List Measure} :
    firstBeyond measures = none ↔ ∀ m ∈ measures, m.Within := by
  simp [firstBeyond, Measure.Within]

theorem firstBeyond_append (before after : List Measure) :
    firstBeyond (before ++ after) = (firstBeyond before).or (firstBeyond after) := by
  simp [firstBeyond, List.find?_append]

/-- Either all measures are within their limits or one of them is the first that is not. -/
theorem exists_firstBeyond {measures : List Measure} (h : ¬ ∀ m ∈ measures, m.Within) :
    ∃ m, firstBeyond measures = some m := by
  rw [← firstBeyond_eq_none_iff] at h
  exact Option.ne_none_iff_exists'.1 h

end ClassLedger.Wire
