import ClassLedger.Proofs.Payload.Packing
import ClassLedger.Proofs.Shape.Drafts
import ClassLedger.Proofs.Shape.Steps
import ClassLedger.Shape.Reader

/-!
# Shapes are read back

A draft that takes the fields of a shape in the order in which they were written ends up with the shape.  Each part of
the shape leads the draft from what it held before to that and the part, so the order of the parts does not matter for
the argument, only that the flags of a member stand directly behind its name.
-/

namespace ClassLedger

open Payload Payload.Step

/-! ### Drafts that take the fields of some steps -/

section

variable {α δ δ' : Type} {take : δ → Field → Except InterpretError δ} {take' : δ' → Field → Except InterpretError δ'}
  {table : List String} {steps more : List Step} {d e : δ}

/-- Taking the fields of some steps leads a draft to another one. -/
def Leads (take : δ → Field → Except InterpretError δ) (table : List String) (steps : List Step) (d e : δ) : Prop :=
  (steps.map (toField table)).foldlM take d = .ok e

theorem Leads.nil : Leads take table [] d d := rfl

theorem Leads.cons {step : Step} {d' : δ} (h : take d (step.toField table) = .ok d')
    (rest : Leads take table steps d' e) : Leads take table (step :: steps) d e := by
  unfold Leads
  rw [List.map_cons, List.foldlM_cons, h]
  exact rest

theorem Leads.append {d' : δ} (h : Leads take table steps d d') (h' : Leads take table more d' e) :
    Leads take table (steps ++ more) d e := by
  unfold Leads at h h' ⊢
  rw [List.map_append, List.foldlM_append, h]
  exact h'

/-- Where the steps for each item put it in front of the items before, the steps for all put them there in reverse. -/
theorem Leads.flatMap {items : List α} {toSteps : α → List Step} (put : List α → δ)
    (h : ∀ x ∈ items, ∀ before, Leads take table (toSteps x) (put before) (put (x :: before))) (before : List α) :
    Leads take table (items.flatMap toSteps) (put before) (put (items.reverse ++ before)) := by
  induction items generalizing before with
  | nil => exact .nil
  | cons x rest ih =>
    have others := ih (fun y hy => h y (List.mem_cons_of_mem _ hy)) (x :: before)
    rw [List.reverse_cons, List.append_assoc]
    exact (h x List.mem_cons_self before).append others

theorem Leads.map {items : List α} {toStep : α → Step} (put : List α → δ)
    (h : ∀ x ∈ items, ∀ before, take (put before) ((toStep x).toField table) = .ok (put (x :: before))) :
    Leads take table (items.map toStep) (put []) (put items.reverse) := by
  have all := Leads.flatMap put (fun x hx before => .cons (h x hx before) .nil) []
  rwa [← List.map_eq_flatMap, List.append_nil] at all

/-- A draft inside another one is led as on its own, if the outer one hands the fields on to it. -/
theorem Leads.lift (put : δ → δ') (inner : Leads take table steps d e)
    (h : ∀ step ∈ steps, ∀ d d', take d (step.toField table) = .ok d' →
      take' (put d) (step.toField table) = .ok (put d')) :
    Leads take' table steps (put d) (put e) :=
  foldlM_lift put (List.forall_mem_map.2 h) inner

end

section

variable {table : List String} (small : table.length ≤ UInt64.size) {name : String} {word : Int32} {tag : Tag}

private theorem ofNumber?_string : Tag.ofNumber? (toField table (.string tag name)).tag = some tag :=
  tag.ofNumber?_number

private theorem ofNumber?_flags : Tag.ofNumber? (toField table (.flags tag word)).tag = some tag :=
  tag.ofNumber?_number

private theorem flags_toField : (toField table (.flags tag word)).flags = .ok word :=
  Field.flags_word tag.number word

include small in
private theorem string_toField (known : name ∈ table) :
    (toField table (.string tag name)).string table.toArray = .ok name :=
  Field.string_idxOf small tag.number known

/-- Flags are given where they are not what the draft holds anyway. -/
private theorem leads_flagSteps {δ : Type} {take : δ → Field → Except InterpretError δ} (put : Int32 → δ)
    (h : take (put 0) (toField table (.flags tag word)) = .ok (put word)) :
    Leads take table (flagSteps tag word) (put 0) (put word) := by
  unfold flagSteps
  by_cases zero : word = 0
  · rw [if_pos zero, zero]
    exact .nil
  · rw [if_neg zero]
    exact .cons h .nil

/-! ### Members -/

namespace MemberDraft

/-- The draft after the given declarations, the last one first. -/
def after (declared : List (MemberKind × Member)) : MemberDraft where
  declared
  accepting := !declared.isEmpty

include small in
theorem leads_member (shape : String) {kind : MemberKind} {m : Member} (known : m.name ∈ table)
    (before : List (MemberKind × Member)) :
    Leads (take table.toArray shape) table (m.steps kind) (after before) (after ((kind, m) :: before)) := by
  have declared : take table.toArray shape (after before) (toField table (.string kind.tag m.name)) =
      .ok (after ((kind, { m with flags := 0 }) :: before)) := by
    unfold take
    rw [ofNumber?_string, string_toField small known]
    cases kind <;> rfl
  have flagged : take table.toArray shape (after ((kind, { m with flags := 0 }) :: before))
      (toField table (.flags .memberFlags m.flags)) = .ok (after ((kind, m) :: before)) := by
    unfold take
    rw [ofNumber?_flags, flags_toField]
    rfl
  exact .cons declared (leads_flagSteps (fun flags => after ((kind, { m with flags }) :: before)) flagged)

include small in
theorem leads_members (shape : String) {m : Members} (known : ∀ name ∈ m.names, name ∈ table) :
    Leads (take table.toArray shape) table m.steps {} (after m.declarations.reverse) := by
  have all : Leads (take table.toArray shape) table m.steps (after []) (after (m.declarations.reverse ++ [])) := by
    refine Leads.flatMap after ?_ []
    intro d hd before
    refine leads_member small shape (known _ ?_) before
    rw [m.names_eq]
    exact List.mem_map_of_mem hd
  rwa [List.append_nil] at all

private theorem map_filter_declared (kind kind' : MemberKind) (ms : List Member) :
    ((ms.map (kind', ·)).filter (·.1 = kind)).map (·.2) = if kind' = kind then ms else [] := by
  induction ms with
  | nil => split <;> rfl
  | cons m rest ih =>
    rw [List.map_cons, List.filter_cons]
    by_cases same : kind' = kind
    · rw [if_pos same] at ih ⊢
      rw [if_pos (by simpa using same), List.map_cons, ih]
    · rw [if_neg same] at ih ⊢
      rw [if_neg (by simpa using same), ih]

theorem members_after (m : Members) : (after m.declarations.reverse).members = m := by
  unfold members ofKind after Members.declarations
  simp [map_filter_declared]

end MemberDraft

/-! ### Classes -/

namespace ClassDraft

include small in
/-- The fields of a class lead from nothing to a draft that finishes as the class. -/
theorem leads_class {s : ClassShape} (known : ∀ name ∈ s.names, name ∈ table) :
    ∃ d, Leads (take table.toArray) table s.steps {} d ∧ d.finish = .ok s := by
  obtain ⟨nameKnown, known⟩ := List.forall_mem_cons.1 known
  obtain ⟨supertypesKnown, known⟩ := List.forall_mem_append.1 known
  obtain ⟨nestedKnown, membersKnown⟩ := List.forall_mem_append.1 known
  -- The drafts behind each part of the class, in the order in which the parts are written.
  let d₁ : ClassDraft := { name := some s.name }
  let d₂ : ClassDraft := { d₁ with flags := s.flags }
  let d₃ : ClassDraft := { d₂ with supertypes := s.supertypes.reverse }
  let d₄ : ClassDraft := { d₃ with nestedClasses := s.nestedClasses.reverse }
  let d₅ : ClassDraft := { d₄ with constructors := s.constructors.reverse }
  let d₆ : ClassDraft := { d₅ with members := .after s.members.declarations.reverse }
  have named : take table.toArray {} (toField table (.string .className s.name)) = .ok d₁ := by
    unfold take
    rw [ofNumber?_string, string_toField small nameKnown]
    rfl
  have flagged : Leads (take table.toArray) table (flagSteps .classFlags s.flags) d₁ d₂ := by
    refine leads_flagSteps (fun flags => { d₁ with flags }) ?_
    unfold take
    rw [ofNumber?_flags, flags_toField]
    rfl
  have supertypes : Leads (take table.toArray) table (s.supertypes.map (.string .supertype)) d₂ d₃ := by
    refine Leads.map (fun supertypes => { d₂ with supertypes }) ?_
    intro name hname before
    unfold take
    rw [ofNumber?_string, string_toField small (supertypesKnown name hname)]
    rfl
  have nestedClasses : Leads (take table.toArray) table (s.nestedClasses.map (.string .nestedClass)) d₃ d₄ := by
    refine Leads.map (fun nestedClasses => { d₃ with nestedClasses }) ?_
    intro name hname before
    unfold take
    rw [ofNumber?_string, string_toField small (nestedKnown name hname)]
    rfl
  have constructors : Leads (take table.toArray) table (s.constructors.map (.flags .constructor)) d₄ d₅ := by
    refine Leads.map (fun constructors => { d₄ with constructors }) ?_
    intro word _ before
    unfold take
    rw [ofNumber?_flags, flags_toField]
    rfl
  -- The class name closed the members when there were none, which is how the draft of a package starts.
  have members : Leads (take table.toArray) table s.members.steps d₅ d₆ := by
    refine (MemberDraft.leads_members small "class" membersKnown).lift (fun members => { d₅ with members }) ?_
    intro step hstep d d' taken
    have handed (tag : Tag) (known : (step.toField table).tag? = some tag) : tag.isMember := by
      rcases Members.eq_of_mem_steps hstep with ⟨kind, name, rfl⟩ | ⟨word, rfl⟩
      · obtain rfl := Option.some.inj (ofNumber?_string.symm.trans known)
        cases kind <;> rfl
      · obtain rfl := Option.some.inj (ofNumber?_flags.symm.trans known)
        rfl
    rw [take_of_handed handed, taken]
    rfl
  refine ⟨d₆, .cons named (flagged.append (supertypes.append (nestedClasses.append (constructors.append members)))), ?_⟩
  show Except.ok _ = Except.ok s
  simp only [d₆, d₅, d₄, d₃, d₂, List.reverse_reverse, MemberDraft.members_after]

end ClassDraft

/-! ### Lambdas -/

include small in
theorem leads_lambda {lambda : Option Member} (known : ∀ m ∈ lambda, m.name ∈ table) :
    Leads (takeLambda table.toArray) table (lambda.toList.flatMap (Member.steps .function)) none lambda := by
  cases lambda with
  | none => exact .nil
  | some m =>
    have named : takeLambda table.toArray none (toField table (.string .function m.name)) =
        .ok (some { m with flags := 0 }) := by
      unfold takeLambda
      rw [ofNumber?_string, string_toField small (known m rfl)]
      rfl
    have flagged : Leads (takeLambda table.toArray) table (flagSteps .memberFlags m.flags)
        (some { m with flags := 0 }) (some m) := by
      refine leads_flagSteps (fun flags => some { m with flags }) ?_
      unfold takeLambda
      rw [ofNumber?_flags, flags_toField]
      rfl
    exact (Leads.cons named flagged).append .nil

end

/-! ### Records of shapes -/

theorem Kind.ofTag_tag {kind : Kind} (h : ∀ tag, kind = .unknown tag → ¬ (1 ≤ tag ∧ tag ≤ 5)) :
    ofTag kind.tag = kind := by
  cases kind with
  | unknown tag =>
    have outside {n : Int32} (known : 1 ≤ n ∧ n ≤ 5) : tag ≠ n := fun same => h tag rfl (same ▸ known)
    show ofTag tag = _
    unfold ofTag
    rw [if_neg (outside (by decide)), if_neg (outside (by decide)), if_neg (outside (by decide)),
      if_neg (outside (by decide)), if_neg (outside (by decide))]
  | _ => rfl

theorem Record.versionIsReadable_iff {version : List Int32} :
    versionIsReadable version ↔ ∃ major ∈ version.head?, 1 ≤ major := by
  cases version with
  | nil => simp [versionIsReadable]
  | cons major rest => simp [versionIsReadable, Int32.le_iff_toInt_le]

namespace Shape

variable {s : Shape} {version : List Int32} {packageName : String}

theorem ofTag_tag_kind (h : ∀ tag, s = unknown tag → ¬ (1 ≤ tag ∧ tag ≤ 5)) : Kind.ofTag s.kind.tag = s.kind := by
  refine Kind.ofTag_tag fun tag same => h tag ?_
  cases s <;> cases same
  rfl

/-- The bytes of the payload that is composed for a shape. -/
def payloadBytes (s : Shape) : List UInt8 := Step.bytes s.names.eraseDups s.steps

theorem payload_toRecord (composed : s.kind ≠ .multiFileFacade) :
    (s.toRecord version packageName).payload = pack Limits.chunkChars s.payloadBytes :=
  congrArg Prod.fst (payload_eq composed)

theorem strings_toRecord (composed : s.kind ≠ .multiFileFacade) :
    (s.toRecord version packageName).strings = s.names.eraseDups :=
  congrArg Prod.snd (payload_eq composed)

theorem unpack_toRecord (composed : s.kind ≠ .multiFileFacade) :
    unpack (s.toRecord version packageName).payload = .ok s.payloadBytes := by
  rw [payload_toRecord composed]
  exact unpack_pack _ _

theorem takeFields_toRecord {δ : Type} {take : Array String → δ → Field → Except InterpretError δ} {d e : δ}
    (composed : s.kind ≠ .multiFileFacade)
    (h : Leads (take s.names.eraseDups.toArray) s.names.eraseDups s.steps d e) :
    (s.toRecord version packageName).takeFields take d = .ok e := by
  unfold Record.takeFields
  rw [unpack_toRecord composed, strings_toRecord composed, payloadBytes, Step.bytes]
  simp only [bind, Except.bind, Field.ofBytes_form]
  rw [h]
  rfl

theorem interpret_eq_ok (readable : Record.versionIsReadable version)
    (own : Kind.ofTag s.kind.tag = s.kind) (small : s.names.eraseDups.length ≤ UInt64.size) :
    (s.toRecord version packageName).interpret = .ok s := by
  have known : ∀ name ∈ s.names, name ∈ s.names.eraseDups := fun _ h => List.mem_eraseDups.2 h
  unfold Record.interpret
  rw [if_pos (show Record.versionIsReadable (s.toRecord version packageName).version from readable),
    show (s.toRecord version packageName).kindOf = s.kind from own]
  have members {m : Members} (membersKnown : ∀ name ∈ m.names, name ∈ s.names.eraseDups) (steps : s.steps = m.steps)
      (composed : s.kind ≠ .multiFileFacade) : (s.toRecord version packageName).readMembers = .ok m := by
    have leads := MemberDraft.leads_members small "package" membersKnown
    rw [← steps] at leads
    unfold Record.readMembers
    rw [takeFields_toRecord composed leads]
    exact congrArg Except.ok (MemberDraft.members_after m)
  cases s with
  | ordinaryClass c =>
    obtain ⟨d, leads, finished⟩ := ClassDraft.leads_class small known
    have read : ((ordinaryClass c).toRecord version packageName).readClass = .ok c := by
      unfold Record.readClass
      rw [takeFields_toRecord (by simp [kind]) leads]
      exact finished
    show (do return ordinaryClass (← Record.readClass _)) = _
    rw [read]
    rfl
  | fileFacade m =>
    show (do return fileFacade (← Record.readMembers _)) = _
    rw [members known rfl (by simp [kind])]
    rfl
  | multiFilePart facade m =>
    show (do return multiFilePart facade (← Record.readMembers _)) = _
    rw [members known rfl (by simp [kind])]
    rfl
  | syntheticClass lambda =>
    have lambdaKnown : ∀ m ∈ lambda, m.name ∈ (syntheticClass lambda).names.eraseDups := by
      intro m hm
      exact known _ (List.mem_map_of_mem (Option.mem_toList.2 hm))
    have read : ((syntheticClass lambda).toRecord version packageName).readLambda = .ok lambda :=
      takeFields_toRecord (by simp [kind]) (leads_lambda small lambdaKnown)
    show (do return syntheticClass (← Record.readLambda _)) = _
    rw [read]
    rfl
  | multiFileFacade parts => rfl
  | unknown tag => rfl

/-- What a record without payload describes. -/
def ofBareKind : Kind → Except InterpretError Shape
  | .ordinaryClass => .error .missingClassName
  | .fileFacade => .ok (fileFacade {})
  | .syntheticClass => .ok (syntheticClass none)
  | .multiFileFacade => .ok (multiFileFacade [])
  | .multiFilePart => .ok (multiFilePart "" {})
  | .unknown tag => .ok (unknown tag)

/-- The record of an unknown shape has no payload, so it is read as the bare kind that its tag stands for. -/
private theorem interpret_unknown {tag : Int32} (readable : Record.versionIsReadable version) :
    ((unknown tag).toRecord version packageName).interpret = ofBareKind (.ofTag tag) := by
  have nothing {δ : Type} {take : Array String → δ → Field → Except InterpretError δ} {d : δ} :
      ((unknown tag).toRecord version packageName).takeFields take d = .ok d :=
    takeFields_toRecord (by simp [kind]) .nil
  unfold Record.interpret
  rw [if_pos (show Record.versionIsReadable ((unknown tag).toRecord version packageName).version from readable),
    show ((unknown tag).toRecord version packageName).kindOf = .ofTag tag from rfl]
  simp only [Record.readClass, Record.readMembers, Record.readLambda, nothing]
  cases Kind.ofTag tag <;> rfl

/-- A shape is read back from its record if the version is readable and the tag of an unknown shape is none of a known
kind.  The record keeps the kind, the version and the package.  The places in its table are 64-bit numbers, so the
distinct names must not be more than these can count. -/
theorem interpret_toRecord (s : Shape) (version : List Int32) (packageName : String) :
    let r := s.toRecord version packageName
    (r.kind = s.kind.tag ∧ r.version = version ∧ r.packageName = packageName ∧ r.extraFlags = 0) ∧
    ((∃ major ∈ version.head?, 1 ≤ major) →
      (s.names.eraseDups.length ≤ UInt64.size → (∀ tag, s = unknown tag → ¬ (1 ≤ tag ∧ tag ≤ 5)) → r.interpret = .ok s) ∧
      (s = unknown 1 → r.interpret = .error .missingClassName) ∧
      (s = unknown 2 → r.interpret = .ok (fileFacade {})) ∧
      (s = unknown 3 → r.interpret = .ok (syntheticClass none)) ∧
      (s = unknown 4 → r.interpret = .ok (multiFileFacade [])) ∧
      (s = unknown 5 → r.interpret = .ok (multiFilePart "" {}))) ∧
    ((¬ ∃ major ∈ version.head?, 1 ≤ major) → r.interpret = .error (.incompatibleVersion version)) := by
  intro r
  refine ⟨⟨rfl, rfl, rfl, rfl⟩, ?_, ?_⟩
  · intro major
    have readable : Record.versionIsReadable r.version := Record.versionIsReadable_iff.2 major
    refine ⟨?_, ?_, ?_, ?_, ?_, ?_⟩
    · exact fun small foreign => interpret_eq_ok readable (ofTag_tag_kind foreign) small
    all_goals
      rintro rfl
      exact interpret_unknown readable
  · intro outdated
    have unreadable : ¬ Record.versionIsReadable r.version := mt Record.versionIsReadable_iff.1 outdated
    unfold Record.interpret
    exact if_neg unreadable

/-- A class in which names occur several times and flag words are 0 or negative. -/
theorem interpret_toRecord_repeated :
    let s := ordinaryClass {
      name := "p/A", flags := -1, supertypes := ["p/B", "p/B"], constructors := [0, -2147483648]
      members := { functions := [{ name := "f", flags := 6 }, { name := "f" }], properties := [{ name := "p/B" }] } }
    s.names.eraseDups = ["p/A", "p/B", "f"] ∧ (s.toRecord [1, 9, 0] "p").interpret = .ok s := by
  intro s
  have table : s.names.eraseDups = ["p/A", "p/B", "f"] := by decide +kernel
  refine ⟨table, ((interpret_toRecord s [1, 9, 0] "p").2.1 ⟨1, rfl, by decide⟩).1 ?_ nofun⟩
  rw [table]
  decide

end Shape

end ClassLedger
