import ClassLedger.Payload.Field
import ClassLedger.Proofs.Concat
import ClassLedger.Shape.Draft
import Mathlib.Data.List.TakeWhile

/-!
# What a list of fields says

The fields of a payload are looked at as a whole: all fields of one tag in their order, and the members with the flags
that belong to them, which are the last ones before the next declaration.  Nothing is read step by step here, so these
notions say what a reader should arrive at.  Each of them is followed as one more field comes to the end of the list.
-/

namespace ClassLedger

/-- What the value of a field stays below: a name is a place in a table of the given size, a flag word has 32 bits. -/
def Tag.bound (size : Nat) : Tag → Nat
  | className | supertype | nestedClass | function | property | typeAlias => size
  | classFlags | constructor | memberFlags => 4294967296

/-- The kind of the members that a field with this tag declares. -/
def Tag.declares? : Tag → Option MemberKind
  | function => some .function
  | property => some .property
  | typeAlias => some .typeAlias
  | className | classFlags | supertype | nestedClass | constructor | memberFlags => none

namespace Field

variable {table : List String} {fields before : List Field} {f : Field} {tag : Tag} {kind : MemberKind}

def tag? (f : Field) : Option Tag := Tag.ofNumber? f.tag

def declares? (f : Field) : Option MemberKind := f.tag?.bind Tag.declares?

/-- The string of the table that the value refers to. -/
def text (table : List String) (f : Field) : String := table.getD f.value.toNat ""

/-- The flag word in the lower half of the value. -/
def word (f : Field) : Int32 := f.value.toUInt32.toInt32

/-- The fields with the given tag in their order. -/
def withTag (tag : Tag) (fields : List Field) : List Field := fields.filter (·.tag? = some tag)

/-- The flag word of the last field, or 0 if there is none. -/
def lastWord (fields : List Field) : Int32 := (fields.getLast?.map word).getD 0

/-- The member flags before the next declaration. -/
def flagsAhead (fields : List Field) : Int32 :=
  lastWord (withTag .memberFlags (fields.takeWhile (·.declares? = none)))

/-- The members that the fields declare, each with its kind and the flags before the next one. -/
def declarations (table : List String) : List Field → List (MemberKind × Member)
  | [] => []
  | f :: rest =>
    match f.declares? with
    | some kind => (kind, { name := f.text table, flags := flagsAhead rest }) :: declarations table rest
    | none => declarations table rest

/-- The declared members of one kind. -/
def declared (table : List String) (kind : MemberKind) (fields : List Field) : List Member :=
  ((declarations table fields).filter (·.1 = kind)).map (·.2)

def members (table : List String) (fields : List Field) : Members where
  functions := declared table .function fields
  properties := declared table .property fields
  typeAliases := declared table .typeAlias fields

/-- The first function with the last flags of all, for fields that belong to a lambda. -/
def lambda? (table : List String) (fields : List Field) : Option Member :=
  (withTag .function fields).head?.map fun f =>
    { name := f.text table, flags := lastWord (withTag .memberFlags fields) }

/-- Some member is declared, and no class name stands behind it. -/
def MemberOpen (fields : List Field) : Prop :=
  ∃ earlier d between, fields = earlier ++ d :: between ∧ d.declares?.isSome ∧ ∀ g ∈ between, g.tag? ≠ some .className

/-- The tag has its place and allows the value, and member flags have a member in front of them. -/
structure Admits (places : Tag → Bool) (size : Nat) (before : List Field) (f : Field) : Prop where
  known : ∃ tag, f.tag? = some tag ∧ places tag ∧ f.value.toNat < tag.bound size
  owned : f.tag? = some .memberFlags → MemberOpen before

/-- All tags have their place and allow the values, and all member flags stand behind a member without a class name in
between. -/
structure Legible (places : Tag → Bool) (size : Nat) (fields : List Field) : Prop where
  known : ∀ f ∈ fields, ∃ tag, f.tag? = some tag ∧ places tag ∧ f.value.toNat < tag.bound size
  owned : ∀ before f after, fields = before ++ f :: after → f.tag? = some .memberFlags → MemberOpen before

/-- Moreover one of the tags occurs at most once. -/
def LegibleOnce (places : Tag → Bool) (single : Tag) (size : Nat) (fields : List Field) : Prop :=
  Legible places size fields ∧ (withTag single fields).length ≤ 1

/-! ### Values -/

theorem string_eq_ok_iff {s : String} :
    f.string table.toArray = .ok s ↔ f.value.toNat < table.length ∧ s = f.text table := by
  unfold string text
  rw [List.getElem?_toArray, List.getD_eq_getElem?_getD]
  by_cases inside : f.value.toNat < table.length
  · simp [inside, eq_comm]
  · simp [inside]

theorem flags_eq_ok_iff {w : Int32} : f.flags = .ok w ↔ f.value.toNat < 4294967296 ∧ w = f.word := by
  unfold flags word
  by_cases fits : f.value.toNat < 4294967296
  · simp [fits, eq_comm]
  · simp [fits]

theorem map_string_eq_ok_iff {δ : Type} {put : String → δ} {d : δ} :
    (do return put (← f.string table.toArray)) = Except.ok d ↔
      f.value.toNat < table.length ∧ d = put (f.text table) := by
  simp only [except_map_eq_ok_iff, string_eq_ok_iff, and_assoc, exists_and_left, exists_eq_left]

theorem map_flags_eq_ok_iff {δ : Type} {put : Int32 → δ} {d : δ} :
    (do return put (← f.flags)) = Except.ok d ↔ f.value.toNat < 4294967296 ∧ d = put f.word := by
  simp only [except_map_eq_ok_iff, flags_eq_ok_iff, and_assoc, exists_and_left, exists_eq_left]

theorem admits_iff {places : Tag → Bool} {size : Nat} (h : f.tag? = some tag) : Admits places size before f ↔
    places tag ∧ f.value.toNat < tag.bound size ∧ (tag = .memberFlags → MemberOpen before) := by
  constructor
  · rintro ⟨⟨_, same, place, small⟩, owned⟩
    obtain rfl := Option.some.inj (h.symm.trans same)
    exact ⟨place, small, fun flags => owned (h.trans (congrArg some flags))⟩
  · rintro ⟨place, small, owned⟩
    exact ⟨⟨tag, h, place, small⟩, fun flags => owned (Option.some.inj (h.symm.trans flags))⟩

theorem not_admits_of_unknown {places : Tag → Bool} {size : Nat} (h : f.tag? = none) :
    ¬ Admits places size before f := by
  rintro ⟨⟨tag, same, -⟩, -⟩
  cases h.symm.trans same

/-! ### One more field -/

theorem declares?_of_tag? (h : f.tag? = some tag) : f.declares? = tag.declares? := by
  rw [declares?, h, Option.bind_some]

theorem mem_withTag : f ∈ withTag tag fields ↔ f ∈ fields ∧ f.tag? = some tag := by
  simp [withTag]

theorem withTag_concat (tag : Tag) (before : List Field) (f : Field) :
    withTag tag (before ++ [f]) = if f.tag? = some tag then withTag tag before ++ [f] else withTag tag before := by
  unfold withTag
  by_cases same : f.tag? = some tag <;> simp [List.filter_append, same]

theorem lastWord_concat (fields : List Field) (f : Field) : lastWord (fields ++ [f]) = f.word := by
  simp [lastWord]

theorem memberOpen_nil : ¬ MemberOpen [] := by
  rintro ⟨earlier, d, between, split, -⟩
  simp at split

theorem MemberOpen.exists_declared (h : MemberOpen fields) : ∃ d ∈ fields, d.declares?.isSome := by
  obtain ⟨earlier, d, between, rfl, declares, -⟩ := h
  exact ⟨d, by simp, declares⟩

theorem memberOpen_concat_iff : MemberOpen (before ++ [f]) ↔
    f.declares?.isSome ∨ f.tag? ≠ some .className ∧ MemberOpen before := by
  constructor
  · rintro ⟨earlier, d, between, split, declares, unnamed⟩
    rcases concat_eq_append_cons_iff.1 split with ⟨rfl, rfl, rfl⟩ | ⟨rest, rfl, rfl⟩
    · exact .inl declares
    · obtain ⟨others, last⟩ := List.forall_mem_append.1 unnamed
      exact .inr ⟨last f List.mem_cons_self, earlier, d, rest, rfl, declares, others⟩
  · rintro (declares | ⟨unnamed, earlier, d, between, rfl, declares, others⟩)
    · exact ⟨before, f, [], rfl, declares, nofun⟩
    · refine ⟨earlier, d, between ++ [f], by simp, declares, List.forall_mem_append.2 ⟨others, ?_⟩⟩
      exact List.forall_mem_singleton.2 unnamed

/-- Nothing has been declared yet, or a class name stands behind all declarations. -/
theorem not_memberOpen_iff : ¬ MemberOpen before ↔ (∀ g ∈ before, g.declares? = none) ∨
    ∃ earlier name between, before = earlier ++ name :: between ∧ name.tag? = some .className ∧
      ∀ g ∈ between, g.declares? = none := by
  induction before using List.reverseRecOn with
  | nil => exact iff_of_true memberOpen_nil (.inl nofun)
  | append_singleton before f ih =>
    rw [memberOpen_concat_iff, not_or, not_and, ih, Option.not_isSome_iff_eq_none]
    constructor
    · rintro ⟨still, closed⟩
      by_cases named : f.tag? = some .className
      · exact .inr ⟨before, f, [], rfl, named, nofun⟩
      · rcases closed named with silent | ⟨earlier, name, between, rfl, named, silent⟩
        · exact .inl (List.forall_mem_append.2 ⟨silent, List.forall_mem_singleton.2 still⟩)
        · refine .inr ⟨earlier, name, between ++ [f], by simp, named, ?_⟩
          exact List.forall_mem_append.2 ⟨silent, List.forall_mem_singleton.2 still⟩
    · rintro (silent | ⟨earlier, name, between, split, named, silent⟩)
      · obtain ⟨others, last⟩ := List.forall_mem_append.1 silent
        exact ⟨last f List.mem_cons_self, fun _ => .inl others⟩
      · rcases concat_eq_append_cons_iff.1 split with ⟨rfl, rfl, rfl⟩ | ⟨rest, rfl, rfl⟩
        · exact ⟨declares?_of_tag? named, fun other => absurd named other⟩
        · obtain ⟨others, last⟩ := List.forall_mem_append.1 silent
          exact ⟨last f List.mem_cons_self, fun _ => .inr ⟨earlier, name, rest, rfl, named, others⟩⟩

theorem legible_nil {places : Tag → Bool} {size : Nat} : Legible places size [] where
  known := nofun
  owned before f after split := by simp at split

theorem legible_concat_iff {places : Tag → Bool} {size : Nat} : Legible places size (before ++ [f]) ↔
    Legible places size before ∧ Admits places size before f := by
  constructor
  · rintro ⟨known, owned⟩
    obtain ⟨others, last⟩ := List.forall_mem_append.1 known
    refine ⟨⟨others, ?_⟩, ⟨last f List.mem_cons_self, owned before f [] rfl⟩⟩
    rintro earlier g after rfl
    exact owned earlier g (after ++ [f]) (by simp)
  · rintro ⟨⟨known, owned⟩, last, ownedLast⟩
    refine ⟨List.forall_mem_append.2 ⟨known, List.forall_mem_singleton.2 last⟩, ?_⟩
    intro earlier g after split
    rcases concat_eq_append_cons_iff.1 split with ⟨rfl, rfl, rfl⟩ | ⟨rest, rfl, rfl⟩
    · exact ownedLast
    · exact owned earlier g rest rfl

theorem legibleOnce_nil {places : Tag → Bool} {single : Tag} {size : Nat} : LegibleOnce places single size [] :=
  ⟨legible_nil, Nat.zero_le _⟩

theorem legibleOnce_concat_iff {places : Tag → Bool} {single : Tag} {size : Nat} :
    LegibleOnce places single size (before ++ [f]) ↔ LegibleOnce places single size before ∧
      Admits places size before f ∧ (f.tag? = some single → withTag single before = []) := by
  unfold LegibleOnce
  rw [legible_concat_iff, withTag_concat]
  by_cases same : f.tag? = some single
  · have first : (withTag single before ++ [f]).length ≤ 1 ↔ withTag single before = [] := by
      rw [List.length_append, List.length_singleton, ← List.length_eq_zero_iff]
      omega
    rw [if_pos same, first]
    constructor
    · rintro ⟨⟨legible, admits⟩, first⟩
      exact ⟨⟨legible, by simp [first]⟩, admits, fun _ => first⟩
    · rintro ⟨⟨legible, -⟩, admits, first⟩
      exact ⟨⟨legible, admits⟩, first same⟩
  · rw [if_neg same]
    constructor
    · rintro ⟨⟨legible, admits⟩, once⟩
      exact ⟨⟨legible, once⟩, admits, fun h => absurd h same⟩
    · rintro ⟨⟨legible, once⟩, admits, -⟩
      exact ⟨⟨legible, admits⟩, once⟩

/-! ### Declarations and one more field -/

theorem declarations_cons_of_some {rest : List Field} (h : f.declares? = some kind) : declarations table (f :: rest) =
    (kind, { name := f.text table, flags := flagsAhead rest }) :: declarations table rest := by
  rw [declarations, h]

theorem declarations_cons_of_none {rest : List Field} (h : f.declares? = none) :
    declarations table (f :: rest) = declarations table rest := by
  rw [declarations, h]

theorem declarations_eq_nil_iff : declarations table fields = [] ↔ ∀ g ∈ fields, g.declares? = none := by
  induction fields with
  | nil => simp [declarations]
  | cons g rest ih =>
    rw [List.forall_mem_cons, ← ih]
    cases declares : g.declares? with
    | none => rw [declarations_cons_of_none declares]; simp
    | some kind => rw [declarations_cons_of_some declares]; simp

theorem declarations_append_of_none {rest : List Field} (none : ∀ g ∈ before, g.declares? = none) :
    declarations table (before ++ rest) = declarations table rest := by
  induction before with
  | nil => rfl
  | cons g before ih =>
    obtain ⟨first, others⟩ := List.forall_mem_cons.1 none
    rw [List.cons_append, declarations_cons_of_none first, ih others]

/-- One more field is among the flags of a member only if no other member is declared in between. -/
theorem flagsAhead_concat (fields : List Field) (f : Field) : flagsAhead (fields ++ [f]) =
    if f.tag? = some .memberFlags ∧ ∀ g ∈ fields, g.declares? = none then f.word else flagsAhead fields := by
  unfold flagsAhead
  by_cases alone : ∀ g ∈ fields, g.declares? = none
  · have whole : fields.takeWhile (·.declares? = none) = fields := List.takeWhile_eq_self_iff.2 (by simpa using alone)
    rw [List.takeWhile_append, whole, if_pos rfl]
    by_cases flags : f.tag? = some .memberFlags
    · have still : f.declares? = none := declares?_of_tag? flags
      rw [if_pos ⟨flags, alone⟩, List.takeWhile_cons_of_pos (by simpa using still), List.takeWhile_nil, withTag_concat,
        if_pos flags, lastWord_concat]
    · rw [if_neg fun h => flags h.1]
      by_cases still : f.declares? = none
      · rw [List.takeWhile_cons_of_pos (by simpa using still), List.takeWhile_nil, withTag_concat, if_neg flags]
      · rw [List.takeWhile_cons_of_neg (by simpa using still), List.append_nil]
  · have part : (fields.takeWhile (·.declares? = none)).length ≠ fields.length := by
      intro same
      have whole := (List.takeWhile_prefix fun g : Field => g.declares? = none).eq_of_length same
      exact alone (by simpa using List.takeWhile_eq_self_iff.1 whole)
    rw [List.takeWhile_append, if_neg part, if_neg fun h => alone h.2]

theorem declarations_concat (other : f.tag? ≠ some .memberFlags) (before : List Field) :
    declarations table (before ++ [f]) = declarations table before ++ declarations table [f] := by
  induction before with
  | nil => rfl
  | cons g rest ih =>
    rw [List.cons_append]
    cases declares : g.declares? with
    | none => rw [declarations_cons_of_none declares, declarations_cons_of_none declares, ih]
    | some kind =>
      rw [declarations_cons_of_some declares, declarations_cons_of_some declares, ih, flagsAhead_concat,
        if_neg (fun h => other h.1), List.cons_append]

/-- Member flags go to the member that was declared last, whatever its kind. -/
theorem declarations_concat_flags (flags : f.tag? = some .memberFlags) {earlier : List (MemberKind × Member)}
    {m : Member} (h : declarations table before = earlier ++ [(kind, m)]) :
    declarations table (before ++ [f]) = earlier ++ [(kind, { m with flags := f.word })] := by
  induction before generalizing earlier with
  | nil => simp [declarations] at h
  | cons g rest ih =>
    rw [List.cons_append]
    cases declares : g.declares? with
    | none =>
      rw [declarations_cons_of_none declares] at h ⊢
      exact ih h
    | some kind' =>
      rw [declarations_cons_of_some declares] at h ⊢
      rw [flagsAhead_concat]
      -- either it is the first of several members, or the only one and takes the flags
      cases earlier with
      | nil =>
        obtain ⟨first, last⟩ := List.cons.inj h
        obtain ⟨rfl, rfl⟩ := Prod.mk.inj first
        rw [declarations_eq_nil_iff] at last
        have none : declarations table (rest ++ [f]) = [] := by
          rw [declarations_eq_nil_iff]
          exact List.forall_mem_append.2 ⟨last, List.forall_mem_singleton.2 (declares?_of_tag? flags)⟩
        rw [if_pos ⟨flags, last⟩, none]
        rfl
      | cons first earlier =>
        obtain ⟨rfl, others⟩ := List.cons.inj h
        have several : ¬ ∀ g ∈ rest, g.declares? = none := by
          intro none
          refine absurd (declarations_eq_nil_iff.2 none : declarations table rest = []) ?_
          rw [others]
          exact List.append_ne_nil_of_right_ne_nil earlier (List.cons_ne_nil _ _)
        rw [if_neg fun h => several h.2, ih others]
        rfl

/-! ### Legibility is decided -/

/-- Whether flags may be given for the member declared last, followed field by field. -/
def accepting (fields : List Field) : Bool :=
  fields.foldl (fun opened f => f.declares?.isSome || (opened && f.tag? ≠ some .className)) false

theorem accepting_concat (before : List Field) (f : Field) :
    accepting (before ++ [f]) = (f.declares?.isSome || (accepting before && f.tag? ≠ some .className)) := by
  unfold accepting
  rw [List.foldl_append]
  rfl

theorem accepting_iff : accepting fields ↔ MemberOpen fields := by
  induction fields using List.reverseRecOn with
  | nil => exact iff_of_false Bool.false_ne_true memberOpen_nil
  | append_singleton before f ih =>
    rw [accepting_concat, memberOpen_concat_iff, ← ih]
    simp [and_comm]

instance : Decidable (MemberOpen fields) := decidable_of_iff _ accepting_iff

theorem legible_iff_getElem {places : Tag → Bool} {size : Nat} : Legible places size fields ↔
    (∀ f ∈ fields, f.tag?.any fun tag => places tag && decide (f.value.toNat < tag.bound size)) ∧
      ∀ i (h : i < fields.length), fields[i].tag? = some .memberFlags → MemberOpen (fields.take i) := by
  constructor
  · rintro ⟨known, owned⟩
    refine ⟨fun f hf => by simpa [Option.any_eq_true] using known f hf, fun i h flags => ?_⟩
    refine owned _ fields[i] (fields.drop (i + 1)) ?_ flags
    rw [List.getElem_cons_drop, List.take_append_drop]
  · rintro ⟨known, owned⟩
    refine ⟨fun f hf => by simpa [Option.any_eq_true] using known f hf, ?_⟩
    rintro before f after rfl flags
    simpa using owned before.length (by simp) (by simpa using flags)

instance (places : Tag → Bool) (size : Nat) : Decidable (Legible places size fields) :=
  decidable_of_iff _ legible_iff_getElem.symm

end Field

end ClassLedger
