import ClassLedger.Proofs.Shape.Projection

/-!
# Drafts after some fields

What a draft holds is determined by the fields it has taken: the draft after some fields is written down from these
fields alone, and one step leads from it to the draft after one more field, exactly if that field is admitted there.
So a run over all fields succeeds exactly if each of them is admitted behind those before it.
-/

namespace ClassLedger

open ClassLedger.Field

variable {table : List String} {before fields : List Field} {f : Field} {kind : MemberKind} {tag : Tag}

/-! ### Members -/

/-- The tags of the fields that belong to the members. -/
def Tag.isMember : Tag → Bool
  | function | property | typeAlias | memberFlags => true
  | className | classFlags | supertype | nestedClass | constructor => false

namespace MemberDraft

/-- The draft after some fields. -/
def ofFields (table : List String) (fields : List Field) : MemberDraft where
  declared := (declarations table fields).reverse
  accepting := Field.accepting fields

theorem members_ofFields (table : List String) (fields : List Field) :
    (ofFields table fields).members = Field.members table fields := by
  simp only [members, ofKind, ofFields, List.reverse_reverse]
  rfl

theorem ofFields_concat_declaration (h : f.declares? = some kind) :
    ofFields table (before ++ [f]) = (ofFields table before).declare kind (f.text table) := by
  have other : f.tag? ≠ some .memberFlags := by
    intro flags
    rw [declares?_of_tag? flags] at h
    cases h
  have single : declarations table [f] = [(kind, { name := f.text table })] := declarations_cons_of_some h
  simp only [ofFields, declare, declarations_concat other, single, accepting_concat, h, List.reverse_append,
    List.reverse_singleton, List.singleton_append, Option.isSome_some, Bool.true_or]

theorem ofFields_concat_className (h : f.tag? = some .className) :
    ofFields table (before ++ [f]) = (ofFields table before).close := by
  have still : f.declares? = none := declares?_of_tag? h
  have single : declarations table [f] = [] := declarations_cons_of_none still
  simp [ofFields, close, declarations_concat (show f.tag? ≠ some .memberFlags by simp [h]), single, accepting_concat, h,
    still]

/-- The other fields of a class change nothing about its members. -/
theorem ofFields_concat_other (h : f.tag? = some tag) (outside : tag.isMember = false)
    (unnamed : tag ≠ .className) : ofFields table (before ++ [f]) = ofFields table before := by
  have still : f.declares? = none := by
    rw [declares?_of_tag? h]
    cases tag <;> first | rfl | cases outside
  have other : f.tag? ≠ some .memberFlags := by
    rw [h]
    rintro ⟨⟩
    cases outside
  have single : declarations table [f] = [] := declarations_cons_of_none still
  simp [ofFields, declarations_concat other, single, accepting_concat, h, still, unnamed]

theorem setFlags_ofFields (flags : f.tag? = some .memberFlags) (opened : MemberOpen before) :
    (ofFields table before).setFlags f.word = .ok (ofFields table (before ++ [f])) := by
  have accepts : Field.accepting before = true := accepting_iff.2 opened
  have still : f.declares? = none := declares?_of_tag? flags
  have some : declarations table before ≠ [] := by
    obtain ⟨d, hd, declares⟩ := opened.exists_declared
    rw [ne_eq, declarations_eq_nil_iff]
    intro none
    rw [none d hd] at declares
    cases declares
  rcases List.eq_nil_or_concat (declarations table before) with none | ⟨earlier, ⟨kind, m⟩, last⟩
  · exact absurd none some
  · rw [List.concat_eq_append] at last
    simp [setFlags, ofFields, declarations_concat_flags flags last, last, accepting_concat, accepts, still, flags]

theorem setFlags_of_not_open (closed : ¬ MemberOpen before) (flags : Int32) :
    (ofFields table before).setFlags flags = .error .orphanFlags := by
  have accepts : Field.accepting before = false := by
    rw [Bool.eq_false_iff, ne_eq, accepting_iff]
    exact closed
  unfold setFlags
  split
  · rename_i opened
    rw [show (ofFields table before).accepting = false from accepts] at opened
    cases opened
  · rfl

theorem take_eq_ok_iff (table : List String) (shape : String) (before : List Field) (f : Field) (d : MemberDraft) :
    (ofFields table before).take table.toArray shape f = .ok d ↔
      Admits Tag.isMember table.length before f ∧ d = ofFields table (before ++ [f]) := by
  unfold take
  cases known : f.tag? with
  | none =>
    rw [show Tag.ofNumber? f.tag = none from known]
    exact iff_of_false nofun fun h => not_admits_of_unknown known h.1
  | some tag =>
    rw [show Tag.ofNumber? f.tag = some tag from known, admits_iff known]
    have declaration (kind : MemberKind) (h : f.declares? = some kind) :
        (do return (ofFields table before).declare kind (← f.string table.toArray)) = Except.ok d ↔
          f.value.toNat < table.length ∧ d = ofFields table (before ++ [f]) := by
      rw [ofFields_concat_declaration h]
      exact map_string_eq_ok_iff
    cases tag with
    | function | property | typeAlias =>
      simpa [Tag.isMember, Tag.bound] using declaration _ (declares?_of_tag? known)
    | memberFlags =>
      simp only [except_bind_eq_ok_iff, flags_eq_ok_iff, Tag.isMember, Tag.bound, true_and, forall_const, and_assoc,
        exists_and_left, exists_eq_left]
      refine and_congr_right fun _ => ?_
      by_cases opened : MemberOpen before
      · rw [setFlags_ofFields known opened, Except.ok.injEq, eq_comm]
        exact (and_iff_right opened).symm
      · rw [setFlags_of_not_open opened]
        exact iff_of_false nofun fun h => opened h.1
    | className | classFlags | supertype | nestedClass | constructor => simp [Tag.isMember]

theorem take_of_not_open (shape : String) (flags : f.tag? = some .memberFlags) (fits : f.value.toNat < 4294967296)
    (closed : ¬ MemberOpen before) : (ofFields table before).take table.toArray shape f = .error .orphanFlags := by
  unfold take
  rw [show Tag.ofNumber? f.tag = some .memberFlags from flags]
  show (do (ofFields table before).setFlags (← f.flags)) = _
  rw [flags_eq_ok_iff.2 ⟨fits, rfl⟩]
  exact setFlags_of_not_open closed f.word

/-- Fields are read as members exactly if they all belong to members and are legible. -/
theorem foldlM_take_eq_ok_iff (table : List String) (shape : String) (fields : List Field) (d : MemberDraft) :
    fields.foldlM (take table.toArray shape) {} = .ok d ↔
      Legible Tag.isMember table.length fields ∧ d = ofFields table fields :=
  foldlM_eq_ok_iff legible_nil (fun _ _ => legible_concat_iff)
    (fun before f d _ => take_eq_ok_iff table shape before f d) d

end MemberDraft

/-! ### Classes -/

namespace ClassDraft

/-- The draft after some fields. -/
def ofFields (table : List String) (fields : List Field) : ClassDraft where
  name := (withTag .className fields).head?.map (text table)
  flags := lastWord (withTag .classFlags fields)
  supertypes := ((withTag .supertype fields).map (text table)).reverse
  nestedClasses := ((withTag .nestedClass fields).map (text table)).reverse
  constructors := ((withTag .constructor fields).map word).reverse
  members := .ofFields table fields

section

variable (handed : ∀ tag, f.tag? = some tag → tag.isMember)

include handed in
/-- Fields of members, and those with unknown tags, are handed on to the draft of the members. -/
theorem take_of_handed (strings : Array String) (d : ClassDraft) :
    d.take strings f = do return { d with members := ← d.members.take strings "class" f } := by
  unfold take
  cases known : f.tag? with
  | none => rw [show Tag.ofNumber? f.tag = none from known]
  | some tag =>
    have member := handed tag known
    rw [show Tag.ofNumber? f.tag = some tag from known]
    cases tag with
    | function | property | typeAlias | memberFlags => rfl
    | className | classFlags | supertype | nestedClass | constructor => cases member

include handed in
theorem ofFields_concat_handed :
    ofFields table (before ++ [f]) = { ofFields table before with members := .ofFields table (before ++ [f]) } := by
  have same {other : Tag} (outside : other.isMember = false) :
      withTag other (before ++ [f]) = withTag other before := by
    rw [withTag_concat, if_neg]
    intro same
    exact Bool.false_ne_true (outside.symm.trans (handed other same))
  simp only [ofFields, @same .className rfl, @same .classFlags rfl, @same .supertype rfl, @same .nestedClass rfl,
    @same .constructor rfl]

include handed in
theorem admits_iff_of_handed {size : Nat} :
    Admits Tag.isMember size before f ↔ Admits (fun _ => true) size before f := by
  cases known : f.tag? with
  | none => exact iff_of_false (not_admits_of_unknown known) (not_admits_of_unknown known)
  | some tag => rw [admits_iff known, admits_iff known, handed tag known]

end

theorem take_eq_ok_iff (table : List String) (before : List Field) (f : Field) (d : ClassDraft) :
    (ofFields table before).take table.toArray f = .ok d ↔
      (Admits (fun _ => true) table.length before f ∧ (f.tag? = some .className → withTag .className before = [])) ∧
        d = ofFields table (before ++ [f]) := by
  by_cases handed : ∀ tag, f.tag? = some tag → tag.isMember
  · have unnamed : f.tag? ≠ some .className := fun name => Bool.false_ne_true (handed _ name)
    have members (m : MemberDraft) : (ofFields table before).members.take table.toArray "class" f = .ok m ↔
        Admits (fun _ => true) table.length before f ∧ m = .ofFields table (before ++ [f]) := by
      rw [← admits_iff_of_handed handed]
      exact MemberDraft.take_eq_ok_iff table "class" before f m
    rw [take_of_handed handed, except_map_eq_ok_iff, ofFields_concat_handed handed]
    simp only [members, and_assoc, exists_and_left, exists_eq_left, unnamed, false_implies, true_and]
  · simp only [not_forall, Bool.not_eq_true] at handed
    obtain ⟨tag, known, outside⟩ := handed
    have others (unnamed : tag ≠ .className) :
        MemberDraft.ofFields table (before ++ [f]) = MemberDraft.ofFields table before :=
      MemberDraft.ofFields_concat_other known outside unnamed
    unfold take
    rw [show Tag.ofNumber? f.tag = some tag from known, admits_iff known, known]
    cases tag with
    | className =>
      by_cases first : withTag .className before = []
      · rw [if_neg (by simp [ofFields, first])]
        refine map_string_eq_ok_iff.trans ?_
        simp [Tag.bound, ofFields, withTag_concat, known, first, MemberDraft.ofFields_concat_className known]
      · rw [if_pos (by simpa [ofFields] using first)]
        simp [first]
    | classFlags =>
      refine map_flags_eq_ok_iff.trans ?_
      simp [Tag.bound, ofFields, withTag_concat, known, others nofun, lastWord_concat]
    | supertype | nestedClass =>
      refine map_string_eq_ok_iff.trans ?_
      simp [Tag.bound, ofFields, withTag_concat, known, others nofun]
    | constructor =>
      refine map_flags_eq_ok_iff.trans ?_
      simp [Tag.bound, ofFields, withTag_concat, known, others nofun]
    | function | property | typeAlias | memberFlags => cases outside

theorem take_of_not_open (flags : f.tag? = some .memberFlags) (fits : f.value.toNat < 4294967296)
    (closed : ¬ MemberOpen before) : (ofFields table before).take table.toArray f = .error .orphanFlags := by
  have handed (tag : Tag) (known : f.tag? = some tag) : tag.isMember := by
    obtain rfl := Option.some.inj (flags.symm.trans known)
    rfl
  rw [take_of_handed handed, ofFields, MemberDraft.take_of_not_open "class" flags fits closed]
  rfl

/-- Fields are read as a class exactly if they are legible and there are not two class names; there may be none yet. -/
theorem foldlM_take_eq_ok_iff (table : List String) (fields : List Field) (d : ClassDraft) :
    fields.foldlM (take table.toArray) {} = .ok d ↔
      LegibleOnce (fun _ => true) .className table.length fields ∧ d = ofFields table fields :=
  foldlM_eq_ok_iff legibleOnce_nil (fun _ _ => legibleOnce_concat_iff)
    (fun before f d _ => take_eq_ok_iff table before f d) d

end ClassDraft

/-! ### Lambdas -/

/-- The tags of the fields that belong to a lambda. -/
def Tag.isLambda : Tag → Bool
  | function | memberFlags => true
  | className | classFlags | supertype | nestedClass | constructor | property | typeAlias => false

section

variable {size : Nat} (legible : Legible Tag.isLambda size before)

include legible in
private theorem tag?_of_declares {d : Field} (member : d ∈ before) (declares : d.declares?.isSome) :
    d.tag? = some .function := by
  obtain ⟨tag, known, place, -⟩ := legible.known d member
  rw [declares?_of_tag? known] at declares
  cases tag with
  | function => exact known
  | memberFlags => cases declares
  | className | classFlags | supertype | nestedClass | constructor | property | typeAlias => cases place

include legible in
/-- Nothing but a function is declared there, and no class name closes it. -/
theorem memberOpen_iff_of_lambda : MemberOpen before ↔ withTag .function before ≠ [] := by
  constructor
  · intro opened
    obtain ⟨d, member, declares⟩ := opened.exists_declared
    exact List.ne_nil_of_mem (mem_withTag.2 ⟨member, tag?_of_declares legible member declares⟩)
  · intro some
    obtain ⟨d, hd⟩ := List.exists_mem_of_ne_nil _ some
    obtain ⟨member, function⟩ := mem_withTag.1 hd
    obtain ⟨earlier, between, rfl⟩ := List.append_of_mem member
    refine ⟨earlier, d, between, rfl, ?_, ?_⟩
    · rw [declares?_of_tag? function]
      rfl
    · intro g hg name
      obtain ⟨tag, known, place, -⟩ := legible.known g (by simp [hg])
      obtain rfl := Option.some.inj (name.symm.trans known)
      cases place

include legible in
theorem withTag_memberFlags_of_lambda (none : withTag .function before = []) : withTag .memberFlags before = [] := by
  refine List.eq_nil_iff_forall_not_mem.2 fun g hg => ?_
  obtain ⟨member, flags⟩ := mem_withTag.1 hg
  obtain ⟨earlier, after, rfl⟩ := List.append_of_mem member
  obtain ⟨d, hd, declares⟩ := (legible.owned earlier g after rfl flags).exists_declared
  have declared : d ∈ earlier ++ g :: after := List.mem_append_left _ hd
  have function := mem_withTag.2 ⟨declared, tag?_of_declares legible declared declares⟩
  exact List.not_mem_nil (none ▸ function)

end

theorem takeLambda_eq_ok_iff (legible : Legible Tag.isLambda table.length before)
    (f : Field) (lambda : Option Member) :
    takeLambda table.toArray (lambda? table before) f = .ok lambda ↔
      (Admits Tag.isLambda table.length before f ∧ (f.tag? = some .function → withTag .function before = [])) ∧
        lambda = lambda? table (before ++ [f]) := by
  unfold takeLambda
  cases known : f.tag? with
  | none =>
    rw [show Tag.ofNumber? f.tag = none from known]
    exact iff_of_false nofun fun h => not_admits_of_unknown known h.1.1
  | some tag =>
    rw [show Tag.ofNumber? f.tag = some tag from known, admits_iff known]
    cases tag with
    | function =>
      by_cases first : withTag .function before = []
      · have unflagged := withTag_memberFlags_of_lambda legible first
        rw [if_neg (by simp [lambda?, first])]
        refine map_string_eq_ok_iff.trans ?_
        simp [Tag.isLambda, Tag.bound, lambda?, withTag_concat, known, first, unflagged, lastWord]
      · rw [if_pos (by simpa [lambda?] using first)]
        simp [first]
    | memberFlags =>
      rw [memberOpen_iff_of_lambda legible]
      simp only [except_bind_eq_ok_iff, flags_eq_ok_iff, Tag.isLambda, Tag.bound, true_and, forall_const, and_assoc,
        exists_and_left, exists_eq_left]
      refine and_congr_right fun _ => ?_
      cases first : withTag .function before with
      | nil =>
        simp [lambda?, first, throw, throwThe, MonadExceptOf.throw]
      | cons d rest =>
        simp [lambda?, first, withTag_concat, known, lastWord_concat, pure, Except.pure, eq_comm]
    | className | classFlags | supertype | nestedClass | constructor | property | typeAlias => simp [Tag.isLambda]

/-- Fields are read as a lambda exactly if they all belong to one, are legible and declare one function at most. -/
theorem foldlM_takeLambda_eq_ok_iff (table : List String) (fields : List Field) (lambda : Option Member) :
    fields.foldlM (takeLambda table.toArray) none = .ok lambda ↔
      LegibleOnce Tag.isLambda .function table.length fields ∧ lambda = lambda? table fields :=
  foldlM_eq_ok_iff legibleOnce_nil (fun _ _ => legibleOnce_concat_iff)
    (fun _ f lambda readable => takeLambda_eq_ok_iff readable.1 f lambda) lambda

end ClassLedger
