import ClassLedger.Proofs.Shape.Drafts

/-!
# Fields that are refused

Payloads of every kind are read after the same rules: which tags have a place there, which of them occurs only once,
and what the values stay below.  Why a field is refused follows from these rules and the fields before it, and the
rules have an order, since a field can violate several of them.  Fields are read from left to right, so a run over them
ends with the first field that is refused, whatever stands behind it.
-/

namespace ClassLedger

open ClassLedger.Field

/-- The rules for the fields of a payload. -/
structure Layout where
  /-- What the payload belongs to, in words. -/
  shape : String
  places : Tag → Bool
  /-- The tag that occurs only once. -/
  single : Option Tag := none

namespace Layout

def ofClass : Layout where
  shape := "class"
  places _ := true
  single := some .className

def ofMembers (shape : String) : Layout where
  shape
  places := Tag.isMember

def ofLambda : Layout where
  shape := "synthetic class"
  places := Tag.isLambda
  single := some .function

/-- The rules for the payloads of a kind, where it has payloads made of fields. -/
def ofKind? : Kind → Option Layout
  | .ordinaryClass => some ofClass
  | .fileFacade | .multiFilePart => some (ofMembers "package")
  | .syntheticClass => some ofLambda
  | .multiFileFacade | .unknown _ => none

end Layout

/-- What is said where a tag occurs again that should occur only once. -/
def Tag.again : Tag → InterpretError
  | className => .duplicateClassName
  | classFlags | supertype | nestedClass | constructor | function | property | typeAlias | memberFlags =>
    .multipleLambdas

/-- What is said of a value that is beyond the bound of its tag. -/
def Field.beyond (size : Nat) (f : Field) : Tag → InterpretError
  | .className | .supertype | .nestedClass | .function | .property | .typeAlias => .stringIndexOutOfBounds f.value size
  | .classFlags | .constructor | .memberFlags => .flagsOverflow f.value

namespace Layout

/-- Why a field is refused behind those before it, if it is: the first rule that it violates. -/
def refusal? (l : Layout) (size : Nat) (before : List Field) (f : Field) : Option InterpretError :=
  match f.tag? with
  | none => some (.unknownTag f.tag)
  | some tag =>
    if l.places tag = false then some (.unexpectedField f.tag l.shape)
    else if l.single = some tag ∧ withTag tag before ≠ [] then some tag.again
    else if tag.bound size ≤ f.value.toNat then some (f.beyond size tag)
    else if tag = .memberFlags ∧ ¬ MemberOpen before then some .orphanFlags
    else none

/-- No field is refused behind those before it. -/
structure Allows (l : Layout) (size : Nat) (fields : List Field) : Prop where
  legible : Legible l.places size fields
  once : ∀ tag, l.single = some tag → (withTag tag fields).length ≤ 1

end Layout

namespace Field

variable {table : List String} {before : List Field} {f : Field} {e : InterpretError}

theorem string_eq_error_iff : f.string table.toArray = .error e ↔
    table.length ≤ f.value.toNat ∧ .stringIndexOutOfBounds f.value table.length = e := by
  unfold string
  rw [List.getElem?_toArray, List.size_toArray]
  by_cases inside : f.value.toNat < table.length
  · simp [inside, Nat.not_le.2 inside]
  · simp [inside, Nat.not_lt.1 inside]

theorem flags_eq_error_iff : f.flags = .error e ↔ 4294967296 ≤ f.value.toNat ∧ .flagsOverflow f.value = e := by
  unfold flags
  by_cases fits : f.value.toNat < 4294967296
  · simp [fits, Nat.not_le.2 fits]
  · simp [fits, Nat.not_lt.1 fits]

end Field

/-! ### One field -/

section

variable {table : List String} {before : List Field} {f : Field} {e : InterpretError} {tag : Tag} {l : Layout}

theorem Layout.refusal?_of_tag? (known : f.tag? = some tag) (size : Nat) : l.refusal? size before f =
    if l.places tag = false then some (.unexpectedField f.tag l.shape)
    else if l.single = some tag ∧ withTag tag before ≠ [] then some tag.again
    else if tag.bound size ≤ f.value.toNat then some (f.beyond size tag)
    else if tag = .memberFlags ∧ ¬ MemberOpen before then some .orphanFlags
    else none := by
  rw [refusal?, known]

private theorem ite_eq_some_iff {α : Type} {p : Prop} [Decidable p] {x y : α} {other : Option α} :
    (if p then some x else other) = some y ↔ (p ∧ x = y) ∨ (¬ p ∧ other = some y) := by
  by_cases h : p <;> simp [h]

/-- The causes for which fields are refused. -/
theorem Layout.eq_of_refusal?_eq_some {size : Nat} (refused : l.refusal? size before f = some e) :
    e = .unknownTag f.tag ∨ e = .unexpectedField f.tag l.shape ∨ e = .duplicateClassName ∨ e = .multipleLambdas ∨
      e = .stringIndexOutOfBounds f.value size ∨ e = .flagsOverflow f.value ∨ e = .orphanFlags := by
  cases known : f.tag? with
  | none =>
    rw [refusal?, known] at refused
    exact .inl (Option.some.inj refused).symm
  | some tag =>
    rw [refusal?_of_tag? known] at refused
    simp only [ite_eq_some_iff, reduceCtorEq, and_false, or_false] at refused
    rcases refused with ⟨-, rfl⟩ | ⟨-, ⟨-, rfl⟩ | ⟨-, ⟨-, rfl⟩ | ⟨-, -, rfl⟩⟩⟩
    · simp
    · cases tag <;> simp [Tag.again]
    · cases tag <;> simp [beyond]
    · simp

theorem MemberDraft.take_eq_error_iff (table : List String) (shape : String) (before : List Field) (f : Field)
    (e : InterpretError) : (ofFields table before).take table.toArray shape f = .error e ↔
      (Layout.ofMembers shape).refusal? table.length before f = some e := by
  unfold take
  cases known : f.tag? with
  | none =>
    rw [show Tag.ofNumber? f.tag = none from known, Layout.refusal?, known]
    simp
  | some tag =>
    rw [show Tag.ofNumber? f.tag = some tag from known, Layout.refusal?_of_tag? known]
    simp only [ite_eq_some_iff]
    cases tag with
    | function | property | typeAlias =>
      refine (except_map_eq_error_iff.trans string_eq_error_iff).trans ?_
      simp [Layout.ofMembers, Tag.isMember, Tag.bound, beyond]
    | memberFlags =>
      simp only [except_bind_eq_error_iff, flags_eq_ok_iff, flags_eq_error_iff, Layout.ofMembers, Tag.isMember,
        Tag.bound, beyond]
      by_cases opened : MemberOpen before
      · simp [opened, setFlags_ofFields known opened]
      · simp [opened, setFlags_of_not_open opened]
    | className | classFlags | supertype | nestedClass | constructor =>
      simp [Layout.ofMembers, Tag.isMember]

/-- The rules for members hold in a class as well, wherever its own rules do not come first. -/
private theorem refusal?_ofMembers (handed : ∀ tag, f.tag? = some tag → tag.isMember) (size : Nat) :
    (Layout.ofMembers "class").refusal? size before f = Layout.ofClass.refusal? size before f := by
  cases known : f.tag? with
  | none => rw [Layout.refusal?, Layout.refusal?, known]
  | some tag =>
    have member := handed tag known
    have unnamed : ¬ Tag.className = tag := by
      rintro rfl
      cases member
    rw [Layout.refusal?_of_tag? known, Layout.refusal?_of_tag? known]
    simp [Layout.ofMembers, Layout.ofClass, member, unnamed]

theorem ClassDraft.take_eq_error_iff (table : List String) (before : List Field) (f : Field) (e : InterpretError) :
    (ofFields table before).take table.toArray f = .error e ↔
      Layout.ofClass.refusal? table.length before f = some e := by
  -- A field that is handed on to the members is refused after their rules, any other one after those of the class.
  by_cases handed : ∀ tag, f.tag? = some tag → tag.isMember
  · rw [take_of_handed handed, except_map_eq_error_iff, ← refusal?_ofMembers handed]
    exact MemberDraft.take_eq_error_iff table "class" before f e
  · simp only [not_forall, Bool.not_eq_true] at handed
    obtain ⟨tag, known, outside⟩ := handed
    unfold take
    rw [show Tag.ofNumber? f.tag = some tag from known, Layout.refusal?_of_tag? known]
    simp only [ite_eq_some_iff]
    cases tag with
    | className =>
      by_cases first : withTag .className before = []
      · rw [if_neg (by simp [ofFields, first])]
        refine (except_map_eq_error_iff.trans string_eq_error_iff).trans ?_
        simp [Layout.ofClass, first, Tag.bound, beyond]
      · rw [if_pos (by simpa [ofFields] using first)]
        simp [Layout.ofClass, first, Tag.again]
    | supertype | nestedClass =>
      refine (except_map_eq_error_iff.trans string_eq_error_iff).trans ?_
      simp [Layout.ofClass, Tag.bound, beyond]
    | classFlags | constructor =>
      refine (except_map_eq_error_iff.trans flags_eq_error_iff).trans ?_
      simp [Layout.ofClass, Tag.bound, beyond]
    | function | property | typeAlias | memberFlags => cases outside

theorem takeLambda_eq_error_iff (legible : Legible Tag.isLambda table.length before) (f : Field) (e : InterpretError) :
    takeLambda table.toArray (lambda? table before) f = .error e ↔
      Layout.ofLambda.refusal? table.length before f = some e := by
  unfold takeLambda
  cases known : f.tag? with
  | none =>
    rw [show Tag.ofNumber? f.tag = none from known, Layout.refusal?, known]
    simp
  | some tag =>
    rw [show Tag.ofNumber? f.tag = some tag from known, Layout.refusal?_of_tag? known]
    simp only [ite_eq_some_iff]
    cases tag with
    | function =>
      by_cases first : withTag .function before = []
      · rw [if_neg (by simp [lambda?, first])]
        refine (except_map_eq_error_iff.trans string_eq_error_iff).trans ?_
        simp [Layout.ofLambda, Tag.isLambda, first, Tag.bound, beyond]
      · rw [if_pos (by simpa [lambda?] using first)]
        simp [Layout.ofLambda, Tag.isLambda, first, Tag.again]
    | memberFlags =>
      -- flags belong to the lambda wherever there is one, since no class name can close it
      rw [memberOpen_iff_of_lambda legible]
      simp only [except_bind_eq_error_iff, flags_eq_ok_iff, flags_eq_error_iff, Layout.ofLambda, Tag.isLambda,
        Tag.bound, beyond]
      cases first : withTag .function before with
      | nil => simp [lambda?, first, throw, throwThe, MonadExceptOf.throw]
      | cons d rest => simp [lambda?, first, pure, Except.pure]
    | className | classFlags | supertype | nestedClass | constructor | property | typeAlias =>
      simp [Layout.ofLambda, Tag.isLambda]

end

/-! ### All fields -/

/-- The draft is read after the rules of the layout: it is what it should be after fields that these rules allow, and
one more field is refused as the rules say. -/
structure Layout.Governs {δ : Type} (l : Layout) (table : List String) (take : δ → Field → Except InterpretError δ)
    (state : List Field → δ) : Prop where
  allowed : ∀ fields d, fields.foldlM take (state []) = .ok d ↔ l.Allows table.length fields ∧ d = state fields
  refused : ∀ before f e, l.Allows table.length before →
    (take (state before) f = .error e ↔ l.refusal? table.length before f = some e)

namespace Layout

variable {δ : Type} {l : Layout} {table : List String} {take : δ → Field → Except InterpretError δ}
  {state : List Field → δ} {size : Nat} {fields : List Field}

theorem allows_ofMembers_iff {shape : String} :
    (ofMembers shape).Allows size fields ↔ Legible Tag.isMember size fields :=
  ⟨fun h => h.legible, fun legible => ⟨legible, nofun⟩⟩

theorem allows_ofClass_iff : ofClass.Allows size fields ↔ LegibleOnce (fun _ => true) .className size fields := by
  constructor
  · rintro ⟨legible, once⟩
    exact ⟨legible, once .className rfl⟩
  · rintro ⟨legible, once⟩
    refine ⟨legible, ?_⟩
    rintro tag ⟨⟩
    exact once

theorem allows_ofLambda_iff : ofLambda.Allows size fields ↔ LegibleOnce Tag.isLambda .function size fields := by
  constructor
  · rintro ⟨legible, once⟩
    exact ⟨legible, once .function rfl⟩
  · rintro ⟨legible, once⟩
    refine ⟨legible, ?_⟩
    rintro tag ⟨⟩
    exact once

theorem governs_members (table : List String) (shape : String) :
    (ofMembers shape).Governs table (MemberDraft.take table.toArray shape) (MemberDraft.ofFields table) where
  allowed fields d := by
    rw [allows_ofMembers_iff]
    exact MemberDraft.foldlM_take_eq_ok_iff table shape fields d
  refused before f e _ := MemberDraft.take_eq_error_iff table shape before f e

theorem governs_class (table : List String) :
    ofClass.Governs table (ClassDraft.take table.toArray) (ClassDraft.ofFields table) where
  allowed fields d := by
    rw [allows_ofClass_iff]
    exact ClassDraft.foldlM_take_eq_ok_iff table fields d
  refused before f e _ := ClassDraft.take_eq_error_iff table before f e

theorem governs_lambda (table : List String) :
    ofLambda.Governs table (takeLambda table.toArray) (lambda? table) where
  allowed fields d := by
    rw [allows_ofLambda_iff]
    exact foldlM_takeLambda_eq_ok_iff table fields d
  refused before f e allowed := takeLambda_eq_error_iff allowed.legible f e

/-- Reading stops at the first field that is refused, with the reason for that one. -/
theorem Governs.foldlM_eq_error_iff (governs : l.Governs table take state) {e : InterpretError} :
    fields.foldlM take (state []) = .error e ↔ ∃ before f after, fields = before ++ f :: after ∧
      l.Allows table.length before ∧ l.refusal? table.length before f = some e := by
  rw [ClassLedger.foldlM_eq_error_iff]
  constructor
  · rintro ⟨before, f, after, d, rfl, ok, failed⟩
    obtain ⟨allowed, rfl⟩ := (governs.allowed before d).1 ok
    exact ⟨before, f, after, rfl, allowed, (governs.refused before f e allowed).1 failed⟩
  · rintro ⟨before, f, after, rfl, allowed, refused⟩
    refine ⟨before, f, after, _, rfl, (governs.allowed before _).2 ⟨allowed, rfl⟩, ?_⟩
    exact (governs.refused before f e allowed).2 refused

end Layout

end ClassLedger
