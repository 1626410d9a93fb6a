import ClassLedger.Proofs.Shape.Precedence
import Mathlib.Data.List.Perm.Subperm

/-!
# Records in normal form

A record that describes a shape is rewritten as the record of this shape.  The shape is found again there, so rewriting
keeps the meaning, and doing it again changes nothing.  The names of the shape come from the table of the record, where
only as many places can be referred to as there are 64-bit numbers, so they always fit the table that is written.
-/

namespace ClassLedger

open ClassLedger.Field

/-! ### Names come from the table -/

namespace Field

variable {table : List String} {fields : List Field} {f : Field}

theorem text_mem_take (inside : f.value.toNat < table.length) : f.text table ∈ table.take UInt64.size := by
  have low : f.value.toNat < (table.take UInt64.size).length := by
    rw [List.length_take]
    exact Nat.lt_min.2 ⟨f.value.toNat_lt, inside⟩
  have same : f.text table = (table.take UInt64.size)[f.value.toNat] := by
    rw [text, List.getElem_take, List.getD_eq_getElem?_getD, List.getElem?_eq_getElem inside, Option.getD_some]
  rw [same]
  exact List.getElem_mem low

theorem exists_of_mem_declarations {d : MemberKind × Member} (h : d ∈ declarations table fields) :
    ∃ f ∈ fields, f.declares? = some d.1 ∧ d.2.name = f.text table := by
  induction fields with
  | nil => cases h
  | cons g rest ih =>
    cases declares : g.declares? with
    | none =>
      rw [declarations_cons_of_none declares] at h
      obtain ⟨f, member, found⟩ := ih h
      exact ⟨f, List.mem_cons_of_mem _ member, found⟩
    | some kind =>
      rw [declarations_cons_of_some declares] at h
      rcases List.mem_cons.1 h with rfl | h
      · exact ⟨g, List.mem_cons_self, declares, rfl⟩
      · obtain ⟨f, member, found⟩ := ih h
        exact ⟨f, List.mem_cons_of_mem _ member, found⟩

theorem exists_of_mem_names {name : String} (h : name ∈ (members table fields).names) :
    ∃ f ∈ fields, f.declares?.isSome ∧ name = f.text table := by
  have declared {kind : MemberKind} {m : Member} (h : m ∈ declared table kind fields) :
      ∃ f ∈ fields, f.declares?.isSome ∧ m.name = f.text table := by
    obtain ⟨d, hd, rfl⟩ := List.mem_map.1 h
    obtain ⟨f, member, declares, named⟩ := exists_of_mem_declarations (List.mem_filter.1 hd).1
    exact ⟨f, member, by rw [declares]; rfl, named⟩
  obtain ⟨m, hm, rfl⟩ := List.mem_map.1 h
  rcases List.mem_append.1 hm with hm | hm
  · rcases List.mem_append.1 hm with hm | hm <;> exact declared hm
  · exact declared hm

section

variable {places : Tag → Bool} (legible : Legible places table.length fields)

include legible in
theorem text_mem_of_tag {tag : Tag} (named : tag.bound table.length = table.length) (member : f ∈ fields)
    (known : f.tag? = some tag) : f.text table ∈ table.take UInt64.size := by
  obtain ⟨tag', known', -, small⟩ := legible.known f member
  obtain rfl := Option.some.inj (known.symm.trans known')
  exact text_mem_take (named ▸ small)

include legible in
theorem names_members_mem {name : String} (h : name ∈ (members table fields).names) :
    name ∈ table.take UInt64.size := by
  obtain ⟨f, member, declares, rfl⟩ := exists_of_mem_names h
  obtain ⟨tag, known, -, -⟩ := legible.known f member
  refine text_mem_of_tag legible ?_ member known
  rw [declares?_of_tag? known] at declares
  cases tag with
  | function | property | typeAlias => rfl
  | className | classFlags | supertype | nestedClass | constructor | memberFlags => cases declares

end

end Field

namespace Record

variable {r : Record} {s : Shape}

/-! ### The shapes of records -/

theorem Describes.kind_eq (h : r.Describes s) : s.kind = r.kindOf := by
  cases h with
  | ordinaryClass kind | fileFacade kind | multiFilePart kind | syntheticClass kind | multiFileFacade kind
  | unknown kind => exact kind.symm

theorem Describes.facadeName_eq (h : r.Describes s) (part : r.kindOf = .multiFilePart) :
    s.facadeName = r.extraText := by
  cases h with
  | multiFilePart => rfl
  | ordinaryClass kind | fileFacade kind | syntheticClass kind | multiFileFacade kind | unknown kind =>
    cases part.symm.trans kind

theorem names_mem_of_readClass {c : ClassShape} (read : r.readClass = .ok c) :
    ∀ name ∈ c.names, name ∈ r.strings.take UInt64.size := by
  obtain ⟨d, taken, -⟩ := except_bind_eq_ok_iff.1 read
  obtain ⟨fields, carries, -⟩ := takeFields_eq_ok_iff.1 taken
  obtain ⟨name, single, legible, rfl⟩ := carries.readClass_eq_ok_iff.1 read
  have known {tag : Tag} (named : tag.bound r.strings.length = r.strings.length) :
      ∀ f ∈ withTag tag fields, f.text r.strings ∈ r.strings.take UInt64.size := by
    intro f hf
    obtain ⟨member, same⟩ := mem_withTag.1 hf
    exact text_mem_of_tag legible named member same
  have texts {tag : Tag} (named : tag.bound r.strings.length = r.strings.length) :
      ∀ s ∈ (withTag tag fields).map (Field.text r.strings), s ∈ r.strings.take UInt64.size :=
    List.forall_mem_map.2 (known named)
  refine List.forall_mem_cons.2 ⟨known rfl name (by rw [single]; exact List.mem_cons_self), ?_⟩
  refine List.forall_mem_append.2 ⟨texts rfl, List.forall_mem_append.2 ⟨texts rfl, ?_⟩⟩
  exact fun s hs => names_members_mem legible hs

theorem names_mem_of_readMembers {m : Members} (read : r.readMembers = .ok m) :
    ∀ name ∈ m.names, name ∈ r.strings.take UInt64.size := by
  obtain ⟨d, taken, -⟩ := except_bind_eq_ok_iff.1 read
  obtain ⟨fields, carries, -⟩ := takeFields_eq_ok_iff.1 taken
  obtain ⟨legible, rfl⟩ := carries.readMembers_eq_ok_iff.1 read
  exact fun name hname => names_members_mem legible hname

theorem names_mem_of_readLambda {lambda : Option Member} (read : r.readLambda = .ok lambda) :
    ∀ m ∈ lambda, m.name ∈ r.strings.take UInt64.size := by
  obtain ⟨fields, carries, -⟩ := takeFields_eq_ok_iff.1 read
  obtain ⟨⟨legible, -⟩, rfl⟩ := carries.readLambda_eq_ok_iff.1 read
  intro m hm
  obtain ⟨f, first, rfl⟩ := Option.map_eq_some_iff.1 hm
  obtain ⟨member, function⟩ := mem_withTag.1 (List.mem_of_mem_head? first)
  exact text_mem_of_tag legible rfl member function

theorem Describes.names_mem (h : r.Describes s) : ∀ name ∈ s.names, name ∈ r.strings.take UInt64.size := by
  cases h with
  | ordinaryClass _ read => exact names_mem_of_readClass read
  | fileFacade _ read | multiFilePart _ read => exact names_mem_of_readMembers read
  | syntheticClass _ read =>
    intro name hname
    obtain ⟨m, hm, rfl⟩ := List.mem_map.1 hname
    exact names_mem_of_readLambda read m (Option.mem_toList.1 hm)
  | multiFileFacade | unknown => exact nofun

/-- A table that holds the names of such a shape is never too long for its places to be written. -/
theorem Describes.length_names_le (h : r.Describes s) : s.names.eraseDups.length ≤ UInt64.size := by
  -- distinct names among the entries that can be referred to
  have places : s.names.eraseDups ⊆ r.strings.take UInt64.size :=
    fun name hname => h.names_mem name (List.mem_eraseDups.1 hname)
  have distinct : s.names.eraseDups.Nodup := s.table_steps ▸ Payload.Step.nodup_table s.steps
  have fewer := (List.subperm_of_subset distinct places).length_le
  rw [List.length_take] at fewer
  omega

/-! ### Rewriting -/

/-- The record of the shape that a record describes, in the same version and package. -/
def normalized (r : Record) : Except InterpretError Record := do
  return (← r.interpret).toRecord r.version r.packageName

theorem not_known_of_ofTag_eq_unknown {t tag : Int32} (h : Kind.ofTag t = .unknown tag) : ¬ (1 ≤ tag ∧ tag ≤ 5) := by
  have same : tag = t := by
    rw [← Kind.tag_ofTag t, h]
    rfl
  subst same
  rintro ⟨low, high⟩
  rw [Int32.le_iff_toInt_le] at low high
  have known : tag = 1 ∨ tag = 2 ∨ tag = 3 ∨ tag = 4 ∨ tag = 5 := by
    simp only [← Int32.toInt_inj]
    simp at low high ⊢
    omega
  rcases known with rfl | rfl | rfl | rfl | rfl <;> cases h

/-- Rewriting a record that describes a shape keeps its kind, its version, its package and, for a part, its facade, and
the shape is the same; rewriting the outcome changes nothing.  The shape is of the kind that the tag of the record
stands for: it has members where this kind has declarations, and it is unknown for no known tag. -/
theorem interpret_normalized (r : Record) (s : Shape) (described : r.interpret = .ok s) :
    let n := s.toRecord r.version r.packageName
    s.kind.tag = r.kind ∧ (s.members?.isSome ↔ r.kindOf.hasDeclarations) ∧
    (∀ tag, s = .unknown tag → ¬ (1 ≤ tag ∧ tag ≤ 5)) ∧
    r.normalized = .ok n ∧ n.interpret = .ok s ∧ n.normalized = .ok n ∧
    n.kind = r.kind ∧ n.version = r.version ∧ n.packageName = r.packageName ∧
    (r.kind = 5 → n.extraText = r.extraText) := by
  intro n
  obtain ⟨readable, describes⟩ := interpret_eq_ok_iff.1 described
  have kind := describes.kind_eq
  have tag : s.kind.tag = r.kind := by
    rw [kind]
    exact Kind.tag_ofTag r.kind
  have own : Kind.ofTag s.kind.tag = s.kind := by
    rw [tag]
    exact kind.symm
  have again : n.interpret = .ok s := Shape.interpret_eq_ok readable own describes.length_names_le
  refine ⟨tag, ?_, ?_, ?_, again, ?_, tag, rfl, rfl, ?_⟩
  · rw [← kind]
    cases s <;> simp [Shape.members?, Shape.kind, Kind.hasDeclarations]
  · rintro tag rfl
    exact not_known_of_ofTag_eq_unknown kind.symm
  · unfold normalized
    rw [described]
    rfl
  · unfold normalized
    rw [again]
    rfl
  · intro part
    exact describes.facadeName_eq (show Kind.ofTag r.kind = _ by rw [part]; rfl)

/-- Numbers with leading zero digits, a table with a string twice and one too many, a flag word given twice, pieces cut
inside a number and the class name in the middle. -/
theorem interpret_normalized_foreign :
    let r : Record := {
      kind := 1, version := [1, 9, 0], strings := ["f", "B", "A", "f", "unused"]
      payload := ["\x86\u0080", "\x00\x03\x03\x00\x09\x85", "", "\x00\x01\x02\x07\x03\x09\x02\x09\x04"] }
    let s : Shape := .ordinaryClass {
      name := "A", supertypes := ["f"]
      members := { functions := [{ name := "f", flags := 5 }], properties := [{ name := "f", flags := 4 }] } }
    let n : Record := {
      kind := 1, version := [1, 9, 0], strings := ["A", "f"]
      payload := ["\x01\x00\x03\x01\x06\x01\x09\x05\x07\x01\x09\x04"] }
    r.interpret = .ok s ∧ r.normalized = .ok n ∧ n.interpret = .ok s ∧ n.normalized = .ok n := by
  intro r s n
  have described : r.interpret = .ok s := by decide +kernel
  have composed : s.kind ≠ .multiFileFacade := by decide
  have payload : s.payload = (n.payload, n.strings) := (Shape.payload_eq composed).trans (by decide +kernel)
  have written : s.toRecord r.version r.packageName = n := by
    rw [Shape.toRecord, payload]
    rfl
  obtain ⟨-, -, -, first, same, second, -⟩ := interpret_normalized r s described
  rw [written] at first same second
  exact ⟨described, first, same, second⟩

end Record

end ClassLedger
