import ClassLedger.Proofs.Shape.Precedence

/-!
# What a shape does not depend on

The payload of a record counts as one sequence of characters, wherever it is cut into pieces, and of the version only
the first part counts.  The package, the flags of the record and, except for a part of a facade, its further text say
nothing about the shape.  The table counts at the places that are referred to, so a longer one gives the same shape.
-/

namespace ClassLedger

open ClassLedger.Field

/-! ### Longer tables -/

section

variable {strings : Array String} {f : Field}

private theorem map_string_append {δ : Type} {put : String → δ} {d : δ}
    (h : (do return put (← f.string strings)) = Except.ok d) (more : Array String) :
    (do return put (← f.string (strings ++ more))) = Except.ok d := by
  obtain ⟨s, found, rfl⟩ := except_map_eq_ok_iff.1 h
  rw [string_append found]
  rfl

theorem MemberDraft.take_append {shape : String} {d d' : MemberDraft} (h : d.take strings shape f = .ok d')
    (more : Array String) : d.take (strings ++ more) shape f = .ok d' := by
  -- Only names are looked up in the table; flags are taken as they are.
  unfold take at h ⊢
  cases known : Tag.ofNumber? f.tag with
  | none =>
    rw [known] at h
    cases h
  | some tag =>
    rw [known] at h
    cases tag with
    | function | property | typeAlias => exact map_string_append h more
    | memberFlags => exact h
    | className | classFlags | supertype | nestedClass | constructor => cases h

theorem ClassDraft.take_append {d d' : ClassDraft} (h : d.take strings f = .ok d') (more : Array String) :
    d.take (strings ++ more) f = .ok d' := by
  by_cases handed : ∀ tag, f.tag? = some tag → tag.isMember
  · rw [take_of_handed handed] at h ⊢
    obtain ⟨members, taken, rfl⟩ := except_map_eq_ok_iff.1 h
    rw [MemberDraft.take_append taken]
    rfl
  · simp only [not_forall, Bool.not_eq_true] at handed
    obtain ⟨tag, known, outside⟩ := handed
    unfold take at h ⊢
    rw [show Tag.ofNumber? f.tag = some tag from known] at h ⊢
    cases tag with
    | className =>
      dsimp only at h ⊢
      split at h
      · cases h
      · rename_i first
        rw [if_neg first]
        exact map_string_append h more
    | supertype | nestedClass => exact map_string_append h more
    | classFlags | constructor => exact h
    | function | property | typeAlias | memberFlags => cases outside

theorem takeLambda_append {lambda lambda' : Option Member} (h : takeLambda strings lambda f = .ok lambda')
    (more : Array String) : takeLambda (strings ++ more) lambda f = .ok lambda' := by
  unfold takeLambda at h ⊢
  cases known : Tag.ofNumber? f.tag with
  | none =>
    rw [known] at h
    cases h
  | some tag =>
    rw [known] at h
    cases tag with
    | function =>
      cases lambda with
      | none => exact map_string_append h more
      | some m => cases h
    | memberFlags => exact h
    | className | classFlags | supertype | nestedClass | constructor | property | typeAlias => cases h

end

namespace Record

/-- The record with more strings behind its table. -/
def enlarged (r : Record) (more : List String) : Record := { r with strings := r.strings ++ more }

variable {r r' : Record} {more : List String}

theorem takeFields_enlarged {δ : Type} {take : Array String → δ → Field → Except InterpretError δ} {start d : δ}
    (keeps : ∀ {d f d'}, take r.strings.toArray d f = .ok d' → take (r.strings.toArray ++ more.toArray) d f = .ok d')
    (h : r.takeFields take start = .ok d) : (r.enlarged more).takeFields take start = .ok d := by
  obtain ⟨fields, carries, ok⟩ := takeFields_eq_ok_iff.1 h
  refine takeFields_eq_ok_iff.2 ⟨fields, ⟨carries.narrow, carries.complete⟩, ?_⟩
  rw [show (r.enlarged more).strings.toArray = r.strings.toArray ++ more.toArray from (List.append_toArray ..).symm]
  exact foldlM_lift id (fun _ _ _ _ taken => keeps taken) ok

theorem readClass_enlarged {c : ClassShape} (h : r.readClass = .ok c) : (r.enlarged more).readClass = .ok c := by
  unfold readClass at h ⊢
  obtain ⟨d, taken, finished⟩ := except_bind_eq_ok_iff.1 h
  rw [takeFields_enlarged (fun h => ClassDraft.take_append h _) taken]
  exact finished

theorem readMembers_enlarged {m : Members} (h : r.readMembers = .ok m) : (r.enlarged more).readMembers = .ok m := by
  unfold readMembers at h ⊢
  obtain ⟨d, taken, rfl⟩ := except_map_eq_ok_iff.1 h
  rw [takeFields_enlarged (fun h => MemberDraft.take_append h _) taken]
  rfl

theorem readLambda_enlarged {lambda : Option Member} (h : r.readLambda = .ok lambda) :
    (r.enlarged more).readLambda = .ok lambda :=
  takeFields_enlarged (fun h => takeLambda_append h _) h

theorem interpret_enlarged {s : Shape} (h : r.interpret = .ok s) : (r.enlarged more).interpret = .ok s := by
  obtain ⟨readable, described⟩ := interpret_eq_ok_iff.1 h
  refine interpret_eq_ok_iff.2 ⟨readable, ?_⟩
  cases described with
  | ordinaryClass kind read => exact .ordinaryClass kind (readClass_enlarged read)
  | fileFacade kind read => exact .fileFacade kind (readMembers_enlarged read)
  | multiFilePart kind read => exact .multiFilePart kind (readMembers_enlarged read)
  | syntheticClass kind read => exact .syntheticClass kind (readLambda_enlarged read)
  | multiFileFacade kind => exact .multiFileFacade kind
  | unknown kind => exact .unknown kind

/-! ### The same characters and the same table -/

theorem takeFields_congr (chars : Payload.chars r.payload = Payload.chars r'.payload) (strings : r.strings = r'.strings)
    {δ : Type} (take : Array String → δ → Field → Except InterpretError δ) (start : δ) :
    r.takeFields take start = r'.takeFields take start := by
  have bytes : Payload.unpack r.payload = Payload.unpack r'.payload := by
    unfold Payload.unpack
    rw [chars]
  unfold takeFields
  rw [bytes, strings]

/-- Two records of one kind with readable versions describe the same shape, or fail in the same way, if they have the
same characters in the payload, the same table and, if they are parts of a facade, the same name of it.  Only the list
of the parts of a facade, which is a payload itself, counts piece by piece.  A record goes on to describe its shape when
strings are put behind its table. -/
theorem interpret_eq_of_chars_eq (r r' : Record) (kind : r.kind = r'.kind) (fields : r.kind ≠ 4)
    (readable : ∃ major ∈ r.version.head?, 1 ≤ major) (readable' : ∃ major ∈ r'.version.head?, 1 ≤ major)
    (strings : r.strings = r'.strings) (chars : Payload.chars r.payload = Payload.chars r'.payload)
    (facade : r.kind = 5 → r.extraText = r'.extraText) :
    r.interpret = r'.interpret ∧ ∀ s, r.interpret = .ok s → ∀ more, (r.enlarged more).interpret = .ok s := by
  refine ⟨?_, fun s h more => interpret_enlarged h⟩
  have taken {δ : Type} := takeFields_congr chars strings (δ := δ)
  unfold interpret
  rw [if_pos (versionIsReadable_iff.2 readable), if_pos (versionIsReadable_iff.2 readable'),
    show r'.kindOf = r.kindOf from congrArg Kind.ofTag kind.symm]
  unfold readClass readMembers readLambda
  simp only [taken]
  have tag : r.kindOf.tag = r.kind := Kind.tag_ofTag r.kind
  cases known : r.kindOf with
  | multiFilePart =>
    rw [known] at tag
    rw [facade tag.symm]
  | multiFileFacade =>
    rw [known] at tag
    exact absurd tag.symm fields
  | ordinaryClass | fileFacade | syntheticClass | unknown => rfl

/-- A tag is cut into three pieces, one of them empty, and everything that does not count is different. -/
theorem interpret_eq_of_chars_eq_cut :
    let r : Record := { kind := 2, version := [1], strings := ["f", "g"], payload := ["\x86\u0080\x00\x01\x09\x03"] }
    let r' : Record := {
      kind := 2, version := [2, 1, 0], strings := ["f", "g"], payload := ["\x86", "", "\u0080", "\x00\x01\x09\x03"]
      extraText := "p/A", packageName := "p", extraFlags := 7 }
    let s : Shape := .fileFacade { functions := [{ name := "g", flags := 3 }] }
    r.interpret = .ok s ∧ r'.interpret = .ok s ∧ (r.enlarged ["f", "h"]).interpret = .ok s := by
  intro r r' s
  have described : r.interpret = .ok s := by decide +kernel
  obtain ⟨same, enlarged⟩ := interpret_eq_of_chars_eq r r' rfl (by decide) ⟨1, rfl, by decide⟩ ⟨2, rfl, by decide⟩ rfl
    (by decide +kernel) (by decide)
  exact ⟨described, same.symm.trans described, enlarged s described ["f", "h"]⟩

end Record

end ClassLedger
