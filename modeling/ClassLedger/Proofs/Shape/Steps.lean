import ClassLedger.Proofs.Payload.Composition
import ClassLedger.Shape.Draft
import ClassLedger.Shape.Writer

/-!
# The steps in which a shape is written

The payload of a shape is composed in steps that follow its parts from left to right, so its table holds the names of
the shape in the order of their first use.
-/

namespace ClassLedger

open Payload Payload.Composer Payload.Step

/-! ### Members -/

/-- The tag of the fields that declare members of a kind. -/
def MemberKind.tag : MemberKind → Tag
  | function => .function
  | property => .property
  | typeAlias => .typeAlias

/-- The step for a flag word, unless it is 0. -/
def flagSteps (tag : Tag) (word : Int32) : List Step := if word = 0 then [] else [.flags tag word]

private theorem foldl_put_flagSteps (c : Composer) (tag : Tag) (word : Int32) :
    (flagSteps tag word).foldl put c = if word = 0 then c else c.flags tag word := by
  unfold flagSteps
  split <;> rfl

private theorem texts_flagSteps (tag : Tag) (word : Int32) : (flagSteps tag word).filterMap text? = [] := by
  unfold flagSteps
  split <;> rfl

def Member.steps (kind : MemberKind) (m : Member) : List Step :=
  .string kind.tag m.name :: flagSteps .memberFlags m.flags

theorem foldl_put_member (c : Composer) (kind : MemberKind) (m : Member) :
    (m.steps kind).foldl put c = c.member kind.tag m :=
  foldl_put_flagSteps _ _ _

theorem Member.texts_steps (kind : MemberKind) (m : Member) : (m.steps kind).filterMap text? = [m.name] := by
  simp only [steps, List.filterMap_cons, text?, texts_flagSteps]

namespace Members

/-- The members with their kinds in the order in which they are written. -/
def declarations (m : Members) : List (MemberKind × Member) :=
  m.functions.map (.function, ·) ++ (m.properties.map (.property, ·) ++ m.typeAliases.map (.typeAlias, ·))

def steps (m : Members) : List Step := m.declarations.flatMap fun d => d.2.steps d.1

/-- The names of the members in the order in which they are written. -/
def names (m : Members) : List String := m.all.map (·.name)

theorem foldl_put_steps (c : Composer) (m : Members) : m.steps.foldl put c = c.members m := by
  simp only [steps, declarations, List.foldl_flatMap, foldl_put_member, List.foldl_append, List.foldl_map]
  rfl

/-- Only names and flags of members are written. -/
theorem eq_of_mem_steps {m : Members} {step : Step} (h : step ∈ m.steps) :
    (∃ kind name, step = .string (MemberKind.tag kind) name) ∨ ∃ word, step = .flags .memberFlags word := by
  obtain ⟨d, -, h⟩ := List.mem_flatMap.1 h
  rcases List.mem_cons.1 h with rfl | h
  · exact .inl ⟨_, _, rfl⟩
  · unfold flagSteps at h
    split at h
    · cases h
    · exact .inr ⟨_, List.mem_singleton.1 h⟩

theorem names_eq (m : Members) : m.names = m.declarations.map (·.2.name) := by
  simp [declarations, names, all, Function.comp_def]

theorem texts_steps (m : Members) : m.steps.filterMap text? = m.names := by
  simp only [steps, List.filterMap_flatMap, Member.texts_steps, ← List.map_eq_flatMap, names_eq]

end Members

/-! ### Classes and other shapes -/

namespace ClassShape

def steps (s : ClassShape) : List Step :=
  .string .className s.name :: (flagSteps .classFlags s.flags ++ (s.supertypes.map (.string .supertype) ++
    (s.nestedClasses.map (.string .nestedClass) ++ (s.constructors.map (.flags .constructor) ++ s.members.steps))))

/-- The names in a class in the order in which they are written. -/
def names (s : ClassShape) : List String :=
  s.name :: (s.supertypes ++ (s.nestedClasses ++ s.members.names))

theorem foldl_put_steps (c : Composer) (s : ClassShape) : s.steps.foldl put c = c.classShape s := by
  simp only [steps, List.foldl_cons, List.foldl_append, List.foldl_map, foldl_put_flagSteps, Members.foldl_put_steps]
  rfl

theorem texts_steps (s : ClassShape) : s.steps.filterMap text? = s.names := by
  have strings (tag : Tag) (xs : List String) : (xs.map (Step.string tag)).filterMap text? = xs := by
    rw [List.filterMap_map]
    exact List.filterMap_some
  have flags (tag : Tag) (xs : List Int32) : (xs.map (Step.flags tag)).filterMap text? = [] := by
    rw [List.filterMap_map]
    exact List.filterMap_eq_nil_iff.2 fun _ _ => rfl
  simp only [steps, List.filterMap_cons, text?, List.filterMap_append, texts_flagSteps, strings, flags,
    Members.texts_steps, List.nil_append, names]

end ClassShape

namespace Shape

def steps : Shape → List Step
  | ordinaryClass c => c.steps
  | fileFacade members | multiFilePart _ members => members.steps
  | syntheticClass lambda => lambda.toList.flatMap (Member.steps .function)
  | multiFileFacade _ | unknown _ => []

/-- The names that go into the table of a shape, in the order in which they are written. -/
def names : Shape → List String
  | ordinaryClass c => c.names
  | fileFacade members | multiFilePart _ members => members.names
  | syntheticClass lambda => lambda.toList.map (·.name)
  | multiFileFacade _ | unknown _ => []

theorem table_steps (s : Shape) : table s.steps = s.names.eraseDups := by
  unfold table
  congr 1
  cases s with
  | ordinaryClass c => exact c.texts_steps
  | fileFacade members => exact members.texts_steps
  | multiFilePart facade members => exact members.texts_steps
  | syntheticClass lambda =>
    cases lambda with
    | none => rfl
    | some m => simp [steps, names, Member.texts_steps]
  | multiFileFacade parts => rfl
  | unknown tag => rfl

/-- Every payload but the list of the parts of a facade is composed. -/
theorem payload_eq {s : Shape} (composed : s.kind ≠ .multiFileFacade) :
    s.payload = (pack Limits.chunkChars (Step.bytes s.names.eraseDups s.steps), s.names.eraseDups) := by
  have finished : (s.steps.foldl put Composer.empty).finish Limits.chunkChars =
      (pack Limits.chunkChars (Step.bytes (table s.steps) s.steps), table s.steps) :=
    (composed_empty.foldl_put s.steps).finish_eq _
  rw [← table_steps, ← finished]
  cases s with
  | ordinaryClass c => rw [payload, steps, c.foldl_put_steps]
  | fileFacade members => rw [payload, steps, members.foldl_put_steps]
  | multiFilePart facade members => rw [payload, steps, members.foldl_put_steps]
  | syntheticClass lambda =>
    cases lambda with
    | none => rfl
    | some m => simp [payload, steps, foldl_put_member, MemberKind.tag]
  | multiFileFacade parts => exact absurd rfl composed
  | unknown tag =>
    simp [payload, steps, finish, Composer.empty, Wire.Buffer.toList, Wire.Buffer.empty, pack]

/-- The table of every shape holds its distinct names. -/
theorem payload_snd (s : Shape) : s.payload.2 = s.names.eraseDups := by
  by_cases composed : s.kind = .multiFileFacade
  · cases s with
    | multiFileFacade parts => rfl
    | _ => cases composed
  · rw [payload_eq composed]

end Shape

end ClassLedger
