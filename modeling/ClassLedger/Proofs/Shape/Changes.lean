import ClassLedger.Proofs.Record.Difference
import ClassLedger.Proofs.Shape.ReadBack

/-!
# Changes of a shape show in its record

The record of a shape keeps apart what can change: the kind, the class name of the facade, and everything else in the
payload and its strings.  Nothing of the latter is lost there, since the shape can be read back from it.  That holds
whatever the version of the record, so it is enough to read the payload in a version that is readable.
-/

namespace ClassLedger.Shape

variable {a b s : Shape}

/-- The shape without the class name of its facade. -/
def withoutFacade : Shape → Shape
  | multiFilePart _ members => multiFilePart "" members
  | ordinaryClass shape => ordinaryClass shape
  | fileFacade members => fileFacade members
  | syntheticClass lambda => syntheticClass lambda
  | multiFileFacade parts => multiFileFacade parts
  | unknown tag => unknown tag

@[simp]
theorem kind_withoutFacade (s : Shape) : s.withoutFacade.kind = s.kind := by
  cases s <;> rfl

@[simp]
theorem payload_withoutFacade (s : Shape) : s.withoutFacade.payload = s.payload := by
  cases s <;> rfl

@[simp]
theorem names_withoutFacade (s : Shape) : s.withoutFacade.names = s.names := by
  cases s <;> rfl

@[simp]
theorem facadeName_withoutFacade (s : Shape) : s.withoutFacade.facadeName = "" := by
  cases s <;> rfl

/-- A shape is what it is without its facade, together with the class name of the facade. -/
theorem eq_iff_withoutFacade : a = b ↔ a.withoutFacade = b.withoutFacade ∧ a.facadeName = b.facadeName := by
  constructor
  · rintro rfl
    exact ⟨rfl, rfl⟩
  · cases a <;> cases b <;> simp +contextual [withoutFacade, facadeName]

/-- Shapes of one kind with the same payload and strings are equal without their facades. -/
theorem withoutFacade_eq_of_payload_eq (own : Kind.ofTag a.kind.tag = a.kind)
    (small : a.names.eraseDups.length ≤ UInt64.size) (kind : a.kind = b.kind) (payload : a.payload = b.payload) :
    a.withoutFacade = b.withoutFacade := by
  have same : a.withoutFacade.toRecord [1] "" = b.withoutFacade.toRecord [1] "" := by
    simp [toRecord, kind, payload]
  have readA : (a.withoutFacade.toRecord [1] "").interpret = .ok a.withoutFacade :=
    interpret_eq_ok rfl (by simpa using own) (by simpa using small)
  have readB : (b.withoutFacade.toRecord [1] "").interpret = .ok b.withoutFacade := by
    refine interpret_eq_ok rfl (by simpa [← kind] using own) ?_
    rwa [names_withoutFacade, ← payload_snd, ← payload, payload_snd]
  rw [same, readB] at readA
  exact (Except.ok.inj readA).symm

theorem payload_eq_iff (own : Kind.ofTag a.kind.tag = a.kind) (small : a.names.eraseDups.length ≤ UInt64.size)
    (kind : a.kind = b.kind) : a.payload = b.payload ↔ a.withoutFacade = b.withoutFacade := by
  refine ⟨withoutFacade_eq_of_payload_eq own small kind, fun same => ?_⟩
  rw [← payload_withoutFacade a, same, payload_withoutFacade]

theorem tag_kind_eq_iff (ownA : Kind.ofTag a.kind.tag = a.kind) (ownB : Kind.ofTag b.kind.tag = b.kind) :
    a.kind.tag = b.kind.tag ↔ a.kind = b.kind := by
  refine ⟨fun same => ?_, congrArg Kind.tag⟩
  rw [← ownA, same, ownB]

/-- The records of two shapes, none of which is an unknown one with the tag of a known kind, differ in the version, in
the package and in the kind just as these differ, in the extra group just as the class names of the facades differ, and
within one kind in the data just as anything else in the shapes differs.  So they are the same exactly for equal shapes,
versions and packages.  The places in a table are 64-bit numbers, so the distinct names must not be more than these can
count; it is enough to know this of one shape, since the other one has the same table if the data are equal. -/
theorem changeFrom_toRecord (a b : Shape) (v w : List Int32) (p q : String)
    (foreignA : ∀ tag, a = unknown tag → ¬ (1 ≤ tag ∧ tag ≤ 5))
    (foreignB : ∀ tag, b = unknown tag → ¬ (1 ≤ tag ∧ tag ≤ 5)) :
    let past := a.toRecord v p
    let current := b.toRecord w q
    let change := current.changeFrom past
    (change.contains .version ↔ v ≠ w) ∧
    (change.contains .package ↔ p ≠ q) ∧
    (change.contains .kind ↔ a.kind ≠ b.kind) ∧
    (change.contains .extra ↔ a.facadeName ≠ b.facadeName) ∧
    (a.names.eraseDups.length ≤ UInt64.size →
      (a.kind = b.kind → (change.contains .data ↔ a.withoutFacade ≠ b.withoutFacade)) ∧
      (current.unchangedFrom past ↔ a = b ∧ v = w ∧ p = q)) := by
  intro past current change
  have ownA := ofTag_tag_kind foreignA
  have ownB := ofTag_tag_kind foreignB
  refine ⟨?_, ?_, ?_, ?_, fun small => ⟨?_, ?_⟩⟩
  · exact Record.contains_changeFrom_iff .version
  · exact Record.contains_changeFrom_iff .package
  · exact (Record.contains_changeFrom_iff .kind).trans (not_congr (tag_kind_eq_iff ownA ownB))
  · refine (Record.contains_changeFrom_iff .extra).trans ?_
    exact or_iff_right fun different => different rfl
  · intro kind
    refine (Record.contains_changeFrom_iff .data).trans ?_
    show a.payload.1 ≠ b.payload.1 ∨ a.payload.2 ≠ b.payload.2 ↔ _
    rw [ne_eq (a.withoutFacade), ← payload_eq_iff ownA small kind, Prod.ext_iff, Decidable.not_and_iff_or_not]
  · rw [Record.unchangedFrom_iff]
    constructor
    · intro same
      have kind : a.kind = b.kind := (tag_kind_eq_iff ownA ownB).1 (congrArg Record.kind same).symm
      have payload : a.payload = b.payload :=
        Prod.ext (congrArg Record.payload same).symm (congrArg Record.strings same).symm
      have facade : a.facadeName = b.facadeName := (congrArg Record.extraText same).symm
      refine ⟨eq_iff_withoutFacade.2 ⟨(payload_eq_iff ownA small kind).1 payload, facade⟩, ?_, ?_⟩
      · exact (congrArg Record.version same).symm
      · exact (congrArg Record.packageName same).symm
    · rintro ⟨rfl, rfl, rfl⟩
      rfl

/-- Flags that go from one member to the next change the data, and a renamed facade the extra group, in a version that
is not readable. -/
theorem changeFrom_toRecord_part :
    let a := multiFilePart "p/A" { functions := [{ name := "f", flags := 6 }, { name := "g" }] }
    let b := multiFilePart "p/B" { functions := [{ name := "f" }, { name := "g", flags := 6 }] }
    let change := (b.toRecord [0] "p").changeFrom (a.toRecord [0] "p")
    change.contains .data ∧ change.contains .extra ∧ ¬ change.contains .kind ∧ ¬ change.contains .version ∧
      ¬ change.contains .package := by
  intro a b change
  obtain ⟨version, package, kind, extra, data⟩ := changeFrom_toRecord a b [0] [0] "p" "p" nofun nofun
  refine ⟨((data (by decide)).1 rfl).2 (by decide), extra.2 (by decide), ?_, ?_, ?_⟩
  · exact fun differs => kind.1 differs rfl
  · exact fun differs => version.1 differs rfl
  · exact fun differs => package.1 differs rfl

end ClassLedger.Shape
