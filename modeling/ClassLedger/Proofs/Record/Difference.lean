import ClassLedger.Change

/-!
# Changes and equal records

The five groups together cover all seven fields, so no group differs exactly between equal records.  Which of two
records is the older one makes no difference to the groups.
-/

namespace ClassLedger

theorem FieldGroup.mem_all (group : FieldGroup) : group ∈ all := by
  cases group <;> decide

theorem Change.isUnchanged_iff {c : Change} : c.isUnchanged ↔ ∀ group, ¬ c.contains group := by
  simp only [isUnchanged, groups, List.isEmpty_iff, List.filter_eq_nil_iff]
  exact ⟨fun h group => h group group.mem_all, fun h group _ => h group⟩

namespace Record

variable {current past : Record}

theorem changeFrom_comm (r q : Record) : r.changeFrom q = q.changeFrom r := by
  simp only [changeFrom, Change.between, ne_comm]

/-- The groups that differ, each by its fields. -/
theorem contains_changeFrom_iff (group : FieldGroup) : (current.changeFrom past).contains group ↔
    match group with
    | .kind => past.kind ≠ current.kind
    | .version => past.version ≠ current.version
    | .data => past.payload ≠ current.payload ∨ past.strings ≠ current.strings
    | .package => past.packageName ≠ current.packageName
    | .extra => past.extraFlags ≠ current.extraFlags ∨ past.extraText ≠ current.extraText := by
  cases group <;> exact decide_eq_true_iff

theorem isUnchanged_changeFrom_iff : (current.changeFrom past).isUnchanged ↔ current = past := by
  rw [Change.isUnchanged_iff]
  constructor
  · intro same
    have kind := same .kind
    have version := same .version
    have data := same .data
    have package := same .package
    have extra := same .extra
    simp only [contains_changeFrom_iff, not_or, ne_eq, Decidable.not_not] at kind version data package extra
    cases current
    cases past
    simp_all
  · rintro rfl group
    rw [contains_changeFrom_iff]
    cases group <;> simp

theorem unchangedFrom_iff : current.unchangedFrom past ↔ current = past := by
  cases current
  cases past
  simp only [unchangedFrom, Bool.and_eq_true, decide_eq_true_eq, mk.injEq]
  constructor
  · rintro ⟨⟨⟨⟨⟨⟨rfl, rfl⟩, rfl⟩, rfl⟩, rfl⟩, rfl⟩, rfl⟩
    simp
  · rintro ⟨rfl, rfl, rfl, rfl, rfl, rfl, rfl⟩
    simp

/-- Records that differ do so in some group. -/
theorem exists_contains_changeFrom (h : current ≠ past) : ∃ group, (current.changeFrom past).contains group := by
  rw [ne_eq, ← isUnchanged_changeFrom_iff, Change.isUnchanged_iff, Classical.not_forall] at h
  obtain ⟨group, differs⟩ := h
  exact ⟨group, Decidable.not_not.1 differs⟩

end Record

end ClassLedger
