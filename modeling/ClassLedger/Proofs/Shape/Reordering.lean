import ClassLedger.Proofs.Shape.Interpretation

/-!
# Fields of a class between its members

The fields of the class itself may stand anywhere between those of its members.  Moving them to the front changes no
projection of the fields, so the class stays the same where both orders are read.  The two orders are not always both
read: a class name between a member and its flags leaves the flags without a member, and no other field does.
-/

namespace ClassLedger

namespace Field

variable {table : List String} {fields before : List Field} {f : Field} {tag : Tag}

/-- Whether the field says something about the class itself. -/
def ofClass (f : Field) : Bool := f.tag?.any fun tag => !tag.isMember

/-- The fields of the class itself before all others, each group in its order. -/
def classFirst (fields : List Field) : List Field := fields.filter ofClass ++ fields.filter (!·.ofClass)

/-- Member flags stand behind the class name, with no member declared in between. -/
def Interrupted (fields : List Field) : Prop :=
  ∃ before name between f after, fields = before ++ name :: (between ++ f :: after) ∧
    name.tag? = some .className ∧ f.tag? = some .memberFlags ∧ ∀ g ∈ between, g.declares? = none

theorem ofClass_of_tag? (h : f.tag? = some tag) : f.ofClass = !tag.isMember := by
  simp [ofClass, h]

theorem declares?_of_ofClass (h : f.ofClass) : f.declares? = none := by
  cases known : f.tag? with
  | none => rw [declares?, known, Option.bind_none]
  | some tag =>
    rw [ofClass_of_tag? known] at h
    rw [declares?_of_tag? known]
    cases tag <;> first | rfl | cases h

theorem mem_classFirst : f ∈ classFirst fields ↔ f ∈ fields := by
  unfold classFirst
  cases own : f.ofClass <;> simp [own]

theorem classFirst_append_cons {after : List Field} (own : f.ofClass = false) : classFirst (before ++ f :: after) =
    ((before ++ f :: after).filter ofClass ++ before.filter (!·.ofClass)) ++ f :: after.filter (!·.ofClass) := by
  have others : (before ++ f :: after).filter (!·.ofClass) =
      before.filter (!·.ofClass) ++ f :: after.filter (!·.ofClass) := by
    rw [List.filter_append, List.filter_cons_of_pos (by simp [own])]
  unfold classFirst
  rw [others, List.append_assoc]

/-! ### Projections of the reordered fields -/

theorem withTag_classFirst (tag : Tag) (fields : List Field) :
    withTag tag (classFirst fields) = withTag tag fields := by
  have own : ∀ g ∈ withTag tag fields, g.ofClass = !tag.isMember := by
    intro g hg
    exact ofClass_of_tag? (mem_withTag.1 hg).2
  have groups : withTag tag (classFirst fields) =
      (withTag tag fields).filter ofClass ++ (withTag tag fields).filter (!·.ofClass) := by
    simp only [withTag, classFirst, List.filter_append, List.filter_filter, Bool.and_comm]
  rw [groups]
  cases member : tag.isMember with
  | true =>
    have none : (withTag tag fields).filter ofClass = [] := List.filter_eq_nil_iff.2 (by simpa [member] using own)
    rw [none, List.nil_append]
    exact List.filter_eq_self.2 (by simpa [member] using own)
  | false =>
    have none : (withTag tag fields).filter (!·.ofClass) = [] := List.filter_eq_nil_iff.2 (by simpa [member] using own)
    rw [none, List.append_nil]
    exact List.filter_eq_self.2 (by simpa [member] using own)

theorem flagsAhead_filter (fields : List Field) : flagsAhead (fields.filter (!·.ofClass)) = flagsAhead fields := by
  unfold flagsAhead
  congr 1
  induction fields with
  | nil => rfl
  | cons g rest ih =>
    cases own : g.ofClass with
    | true =>
      have still := declares?_of_ofClass own
      have other : g.tag? ≠ some .memberFlags := by
        intro flags
        rw [ofClass_of_tag? flags] at own
        cases own
      rw [List.filter_cons_of_neg (by simp [own]), List.takeWhile_cons_of_pos (by simpa using still), ih]
      unfold withTag
      rw [List.filter_cons_of_neg (by simpa using other)]
    | false =>
      rw [List.filter_cons_of_pos (by simp [own])]
      by_cases still : g.declares? = none
      · rw [List.takeWhile_cons_of_pos (by simpa using still), List.takeWhile_cons_of_pos (by simpa using still)]
        unfold withTag at ih ⊢
        rw [List.filter_cons, List.filter_cons, ih]
      · rw [List.takeWhile_cons_of_neg (by simpa using still), List.takeWhile_cons_of_neg (by simpa using still)]

theorem declarations_filter (table : List String) (fields : List Field) :
    declarations table (fields.filter (!·.ofClass)) = declarations table fields := by
  induction fields with
  | nil => rfl
  | cons g rest ih =>
    cases own : g.ofClass with
    | true =>
      rw [List.filter_cons_of_neg (by simp [own]), declarations_cons_of_none (declares?_of_ofClass own), ih]
    | false =>
      rw [List.filter_cons_of_pos (by simp [own])]
      cases declares : g.declares? with
      | none => rw [declarations_cons_of_none declares, declarations_cons_of_none declares, ih]
      | some kind => rw [declarations_cons_of_some declares, declarations_cons_of_some declares, flagsAhead_filter, ih]

theorem declarations_classFirst (table : List String) (fields : List Field) :
    declarations table (classFirst fields) = declarations table fields := by
  unfold classFirst
  rw [declarations_append_of_none, declarations_filter]
  intro g hg
  exact declares?_of_ofClass (List.mem_filter.1 hg).2

/-! ### Flags without a member -/

/-- If the members on their own are legible, only a class name leaves flags without a member. -/
theorem owned_iff_of_legible_classFirst {places : Tag → Bool} {size : Nat}
    (legible : Legible places size (classFirst fields)) :
    (∀ before f after, fields = before ++ f :: after → f.tag? = some .memberFlags → MemberOpen before) ↔
      ¬ Interrupted fields := by
  constructor
  · rintro owned ⟨before, name, between, f, after, split, named, flags, silent⟩
    refine not_memberOpen_iff.2 (.inr ⟨before, name, between, rfl, named, silent⟩) (owned _ f after ?_ flags)
    rw [split, List.append_assoc, List.cons_append]
  · rintro whole before f after rfl flags
    by_contra closed
    rcases not_memberOpen_iff.1 closed with silent | ⟨earlier, name, between, rfl, named, silent⟩
    · -- then none is declared in front of the flags in the reordered fields either
      have opened := legible.owned _ f _ (classFirst_append_cons (ofClass_of_tag? flags)) flags
      obtain ⟨d, member, declares⟩ := opened.exists_declared
      have none : d.declares? = none := by
        rcases List.mem_append.1 member with h | h
        · exact declares?_of_ofClass (List.mem_filter.1 h).2
        · exact silent d (List.mem_filter.1 h).1
      rw [none] at declares
      cases declares
    · exact whole ⟨earlier, name, between, f, after, by simp, named, flags, silent⟩

end Field

open ClassLedger.Field

theorem ClassShape.ofFields_classFirst (table : List String) (name : Field) (fields : List Field) :
    ofFields table name (classFirst fields) = ofFields table name fields := by
  simp only [ofFields, withTag_classFirst, Field.members, declared, declarations_classFirst]

/-- Known fields with one class name are refused, if at all, because flags have no member. -/
theorem ClassDraft.foldlM_take_of_not_legible {table : List String} {fields : List Field}
    (known : ∀ f ∈ fields, ∃ tag, f.tag? = some tag ∧ f.value.toNat < tag.bound table.length)
    (once : (withTag .className fields).length ≤ 1) (illegible : ¬ Legible (fun _ => true) table.length fields) :
    fields.foldlM (take table.toArray) {} = .error .orphanFlags := by
  induction fields using List.reverseRecOn with
  | nil => exact absurd legible_nil illegible
  | append_singleton before f ih =>
    obtain ⟨others, last⟩ := List.forall_mem_append.1 known
    have fewer : (withTag .className before).length ≤ 1 := by
      refine Nat.le_trans (List.Sublist.length_le ?_) once
      exact (List.sublist_append_left before [f]).filter _
    rw [List.foldlM_append]
    by_cases legible : Legible (fun _ => true) table.length before
    · -- the fields before are read, so this one must be flags without a member
      rw [(foldlM_take_eq_ok_iff table before _).2 ⟨⟨legible, fewer⟩, rfl⟩]
      obtain ⟨tag, same, small⟩ := last f List.mem_cons_self
      have refused : ¬ (f.tag? = some .memberFlags → MemberOpen before) := by
        intro owned
        exact illegible (legible_concat_iff.2 ⟨legible, ⟨tag, same, rfl, small⟩, owned⟩)
      obtain ⟨flags, closed⟩ := Classical.not_imp.1 refused
      obtain rfl := Option.some.inj (same.symm.trans flags)
      show ([f].foldlM (take table.toArray) (ofFields table before)) = _
      rw [List.foldlM_cons, take_of_not_open flags small closed]
      rfl
    · rw [ih others fewer legible]
      rfl

namespace Record

variable {r first : Record} {fields : List Field}

/-- Where a class is read with its own fields in front, the same class is read from the fields as they stand, or else
flags are refused behind the class name. -/
theorem readClass_of_classFirst (r first : Record) (fields : List Field) (c : ClassShape)
    (table : first.strings = r.strings) (carries : r.Carries fields) (carriesFirst : first.Carries (classFirst fields))
    (read : first.readClass = .ok c) :
    (¬ Interrupted fields → r.readClass = .ok c) ∧ (Interrupted fields → r.readClass = .error .orphanFlags) := by
  obtain ⟨name, single, legible, rfl⟩ := carriesFirst.readClass_eq_ok_iff.1 read
  rw [table] at legible ⊢
  rw [withTag_classFirst] at single
  rw [ClassShape.ofFields_classFirst]
  have known : ∀ f ∈ fields, ∃ tag, f.tag? = some tag ∧ true ∧ f.value.toNat < tag.bound r.strings.length :=
    fun f hf => legible.known f (mem_classFirst.2 hf)
  have owned := owned_iff_of_legible_classFirst legible
  constructor
  · intro whole
    exact carries.readClass_eq_ok_iff.2 ⟨name, single, ⟨known, owned.2 whole⟩, rfl⟩
  · intro interrupted
    have illegible : ¬ Legible (fun _ => true) r.strings.length fields := fun h => owned.1 h.owned interrupted
    have refused := ClassDraft.foldlM_take_of_not_legible (by simpa using known) (by simp [single]) illegible
    unfold readClass
    rw [carries.takeFields_eq, refused]
    rfl

/-- A supertype stands between a function and its flags, and the class name between the members. -/
theorem readClass_of_classFirst_named_late :
    let fields : List Field := [⟨6, 0⟩, ⟨3, 2⟩, ⟨9, 5⟩, ⟨1, 1⟩, ⟨7, 0⟩, ⟨2, 4⟩, ⟨9, 6⟩]
    let r : Record := {
      kind := 1, version := [1, 9, 0], strings := ["f", "A", "B"]
      payload := ["\x06\x00\x03\x02\x09\x05\x01\x01\x07\x00\x02\x04\x09\x06"] }
    let first : Record := { r with payload := ["\x03\x02\x01\x01\x02\x04\x06\x00\x09\x05\x07\x00\x09\x06"] }
    let c : ClassShape := {
      name := "A", flags := 4, supertypes := ["B"]
      members := { functions := [{ name := "f", flags := 5 }], properties := [{ name := "f", flags := 6 }] } }
    r.Carries fields ∧ first.Carries (classFirst fields) ∧ first.readClass = .ok c ∧ r.readClass = .ok c := by
  intro fields r first c
  have carries : r.Carries fields := carries_of_form (by decide +kernel) (by decide +kernel)
  have carriesFirst : first.Carries (classFirst fields) := carries_of_form (by decide +kernel) (by decide +kernel)
  have legible : Legible (fun _ => true) r.strings.length (classFirst fields) := by decide +kernel
  have read : first.readClass = .ok c :=
    carriesFirst.readClass_eq_ok_iff.2 ⟨⟨1, 1⟩, by decide +kernel, legible, by decide +kernel⟩
  have owned : Legible (fun _ => true) r.strings.length fields := by decide +kernel
  have whole : ¬ Interrupted fields := (owned_iff_of_legible_classFirst legible).1 owned.owned
  exact ⟨carries, carriesFirst, read, (readClass_of_classFirst r first fields c rfl carries carriesFirst read).1 whole⟩

/-- Behind the class name, flags are refused although a function precedes them. -/
theorem readClass_of_classFirst_interrupted :
    let fields : List Field := [⟨6, 0⟩, ⟨1, 1⟩, ⟨9, 1⟩]
    let r : Record := {
      kind := 1, version := [1, 9, 0], strings := ["f", "A"], payload := ["\x06\x00\x01\x01\x09\x01"] }
    let first : Record := { r with payload := ["\x01\x01\x06\x00\x09\x01"] }
    r.Carries fields ∧ first.Carries (classFirst fields) ∧
      first.readClass = .ok { name := "A", members := { functions := [{ name := "f", flags := 1 }] } } ∧
      r.readClass = .error .orphanFlags := by
  intro fields r first
  have carries : r.Carries fields := carries_of_form (by decide +kernel) (by decide +kernel)
  have carriesFirst : first.Carries (classFirst fields) := carries_of_form (by decide +kernel) (by decide +kernel)
  refine ⟨carries, carriesFirst, ?_, ?_⟩
  · unfold readClass
    rw [carriesFirst.takeFields_eq]
    rfl
  · unfold readClass
    rw [carries.takeFields_eq]
    rfl

end Record

end ClassLedger
