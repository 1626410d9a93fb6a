import ClassLedger.Proofs.Shape.Drafts
import ClassLedger.Proofs.Shape.ReadBack

/-!
# What records describe

A record whose payload is a complete list of fields is interpreted exactly if the fields are legible for its kind, and
the shape is made of projections of the list: the fields of each tag in their order, and the members with their flags.
-/

namespace ClassLedger

open ClassLedger.Field

/-- The class with the given name field and what the fields say about it. -/
def ClassShape.ofFields (table : List String) (name : Field) (fields : List Field) : ClassShape where
  name := name.text table
  flags := lastWord (withTag .classFlags fields)
  supertypes := (withTag .supertype fields).map (text table)
  nestedClasses := (withTag .nestedClass fields).map (text table)
  constructors := (withTag .constructor fields).map word
  members := Field.members table fields

theorem ClassDraft.finish_ofFields_eq_ok_iff {table : List String} {fields : List Field} {c : ClassShape} :
    (ClassDraft.ofFields table fields).finish = .ok c ↔
      ∃ name, (withTag .className fields).head? = some name ∧ c = .ofFields table name fields := by
  unfold finish ofFields
  cases named : (withTag .className fields).head? with
  | none => simp
  | some name =>
    simp [ClassShape.ofFields, MemberDraft.members_ofFields, eq_comm]

namespace Record

variable {r : Record} {fields : List Field}

/-- The characters of the payload are bytes, and these are complete fields. -/
structure Carries (r : Record) (fields : List Field) : Prop where
  narrow : ∀ c ∈ Payload.chars r.payload, c.toNat ≤ 255
  complete : Field.ofBytes ((Payload.chars r.payload).map fun c => UInt8.ofNat c.toNat) = (fields, none)

theorem carries_of_form (narrow : (Payload.chars r.payload).all (·.toNat ≤ 255))
    (form : (Payload.chars r.payload).map (fun c => UInt8.ofNat c.toNat) = fields.flatMap Field.form) :
    r.Carries fields where
  narrow := by simpa using narrow
  complete := by rw [form, ofBytes_form]

theorem Carries.takeFields_eq {δ : Type} {take : Array String → δ → Field → Except InterpretError δ} {start : δ}
    (carries : r.Carries fields) : r.takeFields take start = fields.foldlM (take r.strings.toArray) start := by
  have bytes : (Payload.chars r.payload).find? (fun c => !Payload.isByte c) = none := by
    rw [List.find?_eq_none]
    intro c hc
    have := carries.narrow c hc
    simp [Payload.isByte]
    omega
  unfold takeFields Payload.unpack
  rw [bytes]
  simp only [bind, Except.bind, carries.complete]
  cases fields.foldlM (take r.strings.toArray) start <;> rfl

theorem Carries.readClass_eq_ok_iff (carries : r.Carries fields) {c : ClassShape} : r.readClass = .ok c ↔
    ∃ name, withTag .className fields = [name] ∧ Legible (fun _ => true) r.strings.length fields ∧
      c = .ofFields r.strings name fields := by
  unfold readClass
  simp only [carries.takeFields_eq, except_bind_eq_ok_iff, ClassDraft.foldlM_take_eq_ok_iff]
  constructor
  · rintro ⟨d, ⟨⟨legible, once⟩, rfl⟩, finished⟩
    obtain ⟨name, first, rfl⟩ := ClassDraft.finish_ofFields_eq_ok_iff.1 finished
    obtain ⟨rest, names⟩ := List.head?_eq_some_iff.1 first
    rw [names, List.length_cons] at once
    obtain rfl : rest = [] := List.length_eq_zero_iff.1 (by omega)
    exact ⟨name, names, legible, rfl⟩
  · rintro ⟨name, single, legible, rfl⟩
    refine ⟨_, ⟨⟨legible, by simp [single]⟩, rfl⟩, ?_⟩
    exact ClassDraft.finish_ofFields_eq_ok_iff.2 ⟨name, by simp [single], rfl⟩

theorem Carries.readMembers_eq_ok_iff (carries : r.Carries fields) {m : Members} : r.readMembers = .ok m ↔
    Legible Tag.isMember r.strings.length fields ∧ m = Field.members r.strings fields := by
  unfold readMembers
  simp only [carries.takeFields_eq, except_map_eq_ok_iff, MemberDraft.foldlM_take_eq_ok_iff, and_assoc, exists_and_left,
    exists_eq_left, MemberDraft.members_ofFields]

theorem Carries.readLambda_eq_ok_iff (carries : r.Carries fields) {lambda : Option Member} :
    r.readLambda = .ok lambda ↔
      LegibleOnce Tag.isLambda .function r.strings.length fields ∧ lambda = lambda? r.strings fields := by
  unfold readLambda
  rw [carries.takeFields_eq, foldlM_takeLambda_eq_ok_iff]

/-- What a record describes, by its kind and what is read from its payload. -/
inductive Describes (r : Record) : Shape → Prop
  | ordinaryClass {c : ClassShape} (kind : r.kindOf = .ordinaryClass) (read : r.readClass = .ok c) :
    Describes r (.ordinaryClass c)
  | fileFacade {m : Members} (kind : r.kindOf = .fileFacade) (read : r.readMembers = .ok m) :
    Describes r (.fileFacade m)
  | multiFilePart {m : Members} (kind : r.kindOf = .multiFilePart) (read : r.readMembers = .ok m) :
    Describes r (.multiFilePart r.extraText m)
  | syntheticClass {lambda : Option Member} (kind : r.kindOf = .syntheticClass) (read : r.readLambda = .ok lambda) :
    Describes r (.syntheticClass lambda)
  | multiFileFacade (kind : r.kindOf = .multiFileFacade) : Describes r (.multiFileFacade r.payload)
  | unknown {tag : Int32} (kind : r.kindOf = .unknown tag) : Describes r (.unknown tag)

theorem interpret_eq_ok_iff {s : Shape} : r.interpret = .ok s ↔ versionIsReadable r.version ∧ r.Describes s := by
  unfold interpret
  constructor
  · intro h
    split at h
    · rename_i readable
      refine ⟨readable, ?_⟩
      cases kind : r.kindOf with
      | ordinaryClass =>
        rw [kind] at h
        obtain ⟨c, read, rfl⟩ := except_map_eq_ok_iff.1 h
        exact .ordinaryClass kind read
      | fileFacade =>
        rw [kind] at h
        obtain ⟨m, read, rfl⟩ := except_map_eq_ok_iff.1 h
        exact .fileFacade kind read
      | multiFilePart =>
        rw [kind] at h
        obtain ⟨m, read, rfl⟩ := except_map_eq_ok_iff.1 h
        exact .multiFilePart kind read
      | syntheticClass =>
        rw [kind] at h
        obtain ⟨lambda, read, rfl⟩ := except_map_eq_ok_iff.1 h
        exact .syntheticClass kind read
      | multiFileFacade =>
        rw [kind] at h
        obtain rfl := Except.ok.inj h
        exact .multiFileFacade kind
      | unknown tag =>
        rw [kind] at h
        obtain rfl := Except.ok.inj h
        exact .unknown kind
    · cases h
  · rintro ⟨readable, described⟩
    rw [if_pos readable]
    cases described with
    | ordinaryClass kind read | fileFacade kind read | multiFilePart kind read | syntheticClass kind read =>
      rw [kind]
      exact except_map_eq_ok_iff.2 ⟨_, read, rfl⟩
    | multiFileFacade kind | unknown kind =>
      rw [kind]
      rfl

/-- A record with a readable version and complete fields is interpreted exactly if the fields are legible for its kind:
the fields of a class name it once, those of a package belong to members, and those of a synthetic class to one lambda.
Then the shape consists of the projections of the fields. -/
theorem interpret_eq_ok_iff_legible (r : Record) (fields : List Field)
    (readable : ∃ major ∈ r.version.head?, 1 ≤ major) (carries : r.Carries fields) (s : Shape) :
    (r.kind = 1 → (r.interpret = .ok s ↔ ∃ name, withTag .className fields = [name] ∧
      Legible (fun _ => true) r.strings.length fields ∧ s = .ordinaryClass (.ofFields r.strings name fields))) ∧
    (r.kind = 2 → (r.interpret = .ok s ↔ Legible Tag.isMember r.strings.length fields ∧
      s = .fileFacade (Field.members r.strings fields))) ∧
    (r.kind = 5 → (r.interpret = .ok s ↔ Legible Tag.isMember r.strings.length fields ∧
      s = .multiFilePart r.extraText (Field.members r.strings fields))) ∧
    (r.kind = 3 → (r.interpret = .ok s ↔ Legible Tag.isLambda r.strings.length fields ∧
      (withTag .function fields).length ≤ 1 ∧ s = .syntheticClass (lambda? r.strings fields))) := by
  have version : versionIsReadable r.version := versionIsReadable_iff.2 readable
  unfold interpret
  rw [if_pos version]
  refine ⟨?_, ?_, ?_, ?_⟩ <;> intro kind
  · rw [show r.kindOf = .ordinaryClass by rw [kindOf, kind]; rfl]
    simp only [except_map_eq_ok_iff, carries.readClass_eq_ok_iff]
    constructor
    · rintro ⟨-, ⟨name, single, legible, rfl⟩, same⟩
      exact ⟨name, single, legible, same⟩
    · rintro ⟨name, single, legible, same⟩
      exact ⟨_, ⟨name, single, legible, rfl⟩, same⟩
  · rw [show r.kindOf = .fileFacade by rw [kindOf, kind]; rfl]
    simp only [except_map_eq_ok_iff, carries.readMembers_eq_ok_iff, and_assoc, exists_and_left, exists_eq_left]
  · rw [show r.kindOf = .multiFilePart by rw [kindOf, kind]; rfl]
    simp only [except_map_eq_ok_iff, carries.readMembers_eq_ok_iff, and_assoc, exists_and_left, exists_eq_left]
  · rw [show r.kindOf = .syntheticClass by rw [kindOf, kind]; rfl]
    simp only [except_map_eq_ok_iff, carries.readLambda_eq_ok_iff, LegibleOnce, and_assoc, exists_and_left,
      exists_eq_left]

/-- A property stands in front of the class name and the flags of the class, and takes the later one of its flags. -/
theorem interpret_eq_ok_iff_legible_interleaved :
    let fields : List Field := [⟨7, 1⟩, ⟨9, 5⟩, ⟨2, 3⟩, ⟨9, 6⟩, ⟨1, 0⟩, ⟨6, 1⟩, ⟨3, 2⟩, ⟨2, 4⟩, ⟨9, 7⟩]
    let r : Record := {
      kind := 1, version := [1, 9, 0], strings := ["A", "p", "B"]
      payload := ["\x07\x01\x09\x05\x02", "\x03\x09\x06\x01\x00\x06\x01\x03\x02\x02\x04\x09\x07"] }
    r.Carries fields ∧ r.interpret = .ok (.ordinaryClass {
      name := "A", flags := 4, supertypes := ["B"]
      members := { functions := [{ name := "p", flags := 7 }], properties := [{ name := "p", flags := 6 }] } }) := by
  intro fields r
  have carries : r.Carries fields := carries_of_form (by decide +kernel) (by decide +kernel)
  refine ⟨carries, ((interpret_eq_ok_iff_legible r fields ⟨1, rfl, by decide⟩ carries _).1 rfl).2 ⟨⟨1, 0⟩, ?_, ?_, ?_⟩⟩
  all_goals decide +kernel

end Record

end ClassLedger
