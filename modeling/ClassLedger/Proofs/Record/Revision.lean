import ClassLedger.Proofs.Record.Difference
import ClassLedger.Record.Builder
import Mathlib.Data.List.Induction

/-!
# What setters change

A record that is built has in each field the value that the last call of the field's setter gave, or the value that the
builder started with (`get_build_setAll`).  So setters of different fields can be called in any order, and the groups in
which a record differs from the one that its builder started with are those of the fields that ended up with another
value, however often they were set in between.
-/

namespace ClassLedger.Record

/-! ### Fields by name -/

inductive FieldName where
  | kind
  | version
  | payload
  | strings
  | extraText
  | packageName
  | extraFlags

namespace FieldName

/-- What a field holds. -/
def Value : FieldName → Type
  | kind | extraFlags => Int32
  | version => List Int32
  | payload | strings => List String
  | extraText | packageName => String

/-- The group in which a field changes. -/
def group : FieldName → FieldGroup
  | kind => .kind
  | version => .version
  | payload | strings => .data
  | packageName => .package
  | extraText | extraFlags => .extra

end FieldName

/-- The value of a field. -/
def get (r : Record) : (field : FieldName) → field.Value
  | .kind => r.kind
  | .version => r.version
  | .payload => r.payload
  | .strings => r.strings
  | .extraText => r.extraText
  | .packageName => r.packageName
  | .extraFlags => r.extraFlags

/-- The field that a setter sets. -/
def Edit.field : Edit → FieldName
  | kind _ => .kind
  | version _ => .version
  | payload _ => .payload
  | strings _ => .strings
  | extraText _ => .extraText
  | packageName _ => .packageName
  | extraFlags _ => .extraFlags

/-- The value that a call gives to a field, if this is the field of its setter. -/
def Edit.value? : Edit → (field : FieldName) → Option field.Value
  | kind value, .kind => some value
  | version value, .version => some value
  | payload value, .payload => some value
  | strings value, .strings => some value
  | extraText value, .extraText => some value
  | packageName value, .packageName => some value
  | extraFlags value, .extraFlags => some value
  | _, _ => none

/-- The value that the last call of a field's setter gives to it. -/
def lastValue? (edits : List Edit) (field : FieldName) : Option field.Value :=
  (edits.filterMap (·.value? field)).getLast?

theorem lastValue?_concat (edits : List Edit) (a : Edit) (field : FieldName) :
    lastValue? (edits ++ [a]) field = (a.value? field).or (lastValue? edits field) := by
  unfold lastValue?
  rw [List.filterMap_append, List.getLast?_append]
  cases h : a.value? field <;> simp [h]

/-! ### Setters -/

namespace Builder

variable {x y : Edit}

theorem get_build_set (b : Builder) (x : Edit) (field : FieldName) :
    (b.set x).build.get field = (x.value? field).getD (b.build.get field) := by
  cases x <;> cases field <;> rfl

/-- The last call of a field's setter decides. -/
theorem get_build_setAll (b : Builder) (edits : List Edit) (field : FieldName) :
    (b.setAll edits).build.get field = (lastValue? edits field).getD (b.build.get field) := by
  induction edits using List.reverseRecOn with
  | nil => rfl
  | append_singleton edits x ih =>
    have last : b.setAll (edits ++ [x]) = (b.setAll edits).set x := setAll_append b edits [x]
    rw [last, get_build_set, ih, lastValue?_concat]
    cases x.value? field <;> rfl

/-- Setters of different fields commute. -/
theorem set_comm (b : Builder) (different : x.field ≠ y.field) : (b.set x).set y = (b.set y).set x := by
  cases x <;> cases y <;> first | rfl | exact absurd rfl different

theorem setAll_swap (b : Builder) (before after : List Edit) (different : x.field ≠ y.field) :
    b.setAll (before ++ y :: x :: after) = b.setAll (before ++ x :: y :: after) := by
  rw [setAll_append, setAll_append, setAll_cons, setAll_cons, setAll_cons, setAll_cons, set_comm _ different]

end Builder

/-! ### Changes by field -/

variable {current past : Record}

/-- A group differs exactly if one of its fields does. -/
theorem mem_groups_changeFrom_iff (group : FieldGroup) : group ∈ (current.changeFrom past).groups ↔
    ∃ field : FieldName, field.group = group ∧ current.get field ≠ past.get field := by
  rw [Change.groups, List.mem_filter, and_iff_right group.mem_all, contains_changeFrom_iff]
  constructor
  · cases group with
    | kind => exact fun differs => ⟨.kind, rfl, differs.symm⟩
    | version => exact fun differs => ⟨.version, rfl, differs.symm⟩
    | data => exact fun differs => differs.elim (⟨.payload, rfl, ·.symm⟩) (⟨.strings, rfl, ·.symm⟩)
    | package => exact fun differs => ⟨.packageName, rfl, differs.symm⟩
    | extra => exact fun differs => differs.elim (⟨.extraFlags, rfl, ·.symm⟩) (⟨.extraText, rfl, ·.symm⟩)
  · rintro ⟨field, rfl, differs⟩
    cases field with
    | kind | version | packageName => exact differs.symm
    | payload | extraFlags => exact .inl differs.symm
    | strings | extraText => exact .inr differs.symm

theorem changeFrom_eq_default_iff : current.changeFrom past = {} ↔ current = past := by
  rw [← isUnchanged_changeFrom_iff, Change.isUnchanged_iff]
  constructor
  · intro nothing group
    rw [nothing]
    cases group <;> decide
  · intro same
    have flag (group : FieldGroup) : (current.changeFrom past).contains group = false := by simpa using same group
    have kind := flag .kind
    have version := flag .version
    have data := flag .data
    have package := flag .package
    have extra := flag .extra
    generalize current.changeFrom past = change at kind version data package extra
    cases change
    simp_all [Change.contains]

/-- A record that is built from another one after any calls of setters holds in each field what the last call for the
field gave it, or what was there before; calls for different fields commute, and without any call it is the record from
before.  The groups that differ from before are those with a field that differs, and all ways to ask whether nothing
changed agree: by the fields one after the other, by the groups, by the change as a whole, by equality, and the other
way round. -/
theorem Builder.build_setAll_characterized (past : Record) (edits : List Edit) :
    let current := ((ofRecord past).setAll edits).build
    (∀ field, current.get field = (lastValue? edits field).getD (past.get field)) ∧
    (ofRecord past).build = past ∧
    (∀ before after x y, edits = before ++ x :: y :: after → x.field ≠ y.field →
      ((ofRecord past).setAll (before ++ y :: x :: after)).build = current) ∧
    (∀ group, group ∈ (current.changeFrom past).groups ↔
      ∃ field : FieldName, field.group = group ∧ current.get field ≠ past.get field) ∧
    (current.unchangedFrom past ↔ current = past) ∧
    ((current.changeFrom past).isUnchanged ↔ current = past) ∧
    (current.changeFrom past = {} ↔ current = past) ∧
    (past.unchangedFrom current ↔ current = past) := by
  intro current
  refine ⟨get_build_setAll (ofRecord past) edits, build_ofRecord past, ?_,
    fun group => mem_groups_changeFrom_iff group, unchangedFrom_iff, isUnchanged_changeFrom_iff,
    changeFrom_eq_default_iff, unchangedFrom_iff.trans eq_comm⟩
  rintro before after x y rfl different
  exact congrArg build (setAll_swap (ofRecord past) before after different)

/-- A version that is set and set back, with a call for the flags in between. -/
theorem Builder.build_setAll_characterized_set_back :
    let past : Record := { kind := 1, version := [1, 9, 0] }
    let edits : List Edit := [.version [2], .extraFlags 7, .version [1, 9, 0]]
    let current := ((ofRecord past).setAll edits).build
    (Edit.version [2]).field ≠ (Edit.extraFlags 7).field ∧
    ((ofRecord past).setAll [.extraFlags 7, .version [2], .version [1, 9, 0]]).build = current ∧
    current.get .version = [1, 9, 0] ∧
    (current.changeFrom past).groups = [.extra] := by
  intro past edits current
  have different : (Edit.version [2]).field ≠ (Edit.extraFlags 7).field := nofun
  obtain ⟨fields, -, swapped, -⟩ := build_setAll_characterized past edits
  exact ⟨different, swapped [] [.version [1, 9, 0]] _ _ rfl different, fields .version, by decide⟩

end ClassLedger.Record
