import ClassLedger.Proofs.Payload.Continuation
import ClassLedger.Proofs.Shape.Interpretation
import ClassLedger.Proofs.Shape.Refusals

/-!
# Which error is reported

A record can have several faults, and the one that is reported is the first in the order of reading: the version, then
all characters of the payload, then its fields from left to right, then the end of the payload inside a field, and last
a class without a name.  So a fault that was found stays the one that is reported when the payload goes on, unless it
was about the end of the payload, or one of the new characters is no byte.
-/

namespace ClassLedger.Record

open ClassLedger.Field

variable {r : Record} {l : Layout} {e : InterpretError}

/-- A fault of the payload, where the payload follows the given layout. -/
inductive PayloadFault (r : Record) (l : Layout) : InterpretError → Prop
  | character {c : Char} (wide : (Payload.chars r.payload).find? (fun c => 255 < c.toNat) = some c) :
    PayloadFault r l (.characterOutOfRange c)
  | field {bytes : List UInt8} {before after : List Field} {f : Field} {broken : Option DecodeError}
    {e : InterpretError} (narrow : Payload.unpack r.payload = .ok bytes)
    (fields : ofBytes bytes = (before ++ f :: after, broken)) (allowed : l.Allows r.strings.length before)
    (refused : l.refusal? r.strings.length before f = some e) : PayloadFault r l e
  | ending {bytes : List UInt8} {fields : List Field} {cause : DecodeError}
    (narrow : Payload.unpack r.payload = .ok bytes) (broken : ofBytes bytes = (fields, some cause))
    (allowed : l.Allows r.strings.length fields) : PayloadFault r l (.malformedPayload cause)

/-- The fault of a record that comes first in the order of reading. -/
inductive FirstFault (r : Record) : InterpretError → Prop
  | version (outdated : ¬ ∃ major ∈ r.version.head?, 1 ≤ major) : FirstFault r (.incompatibleVersion r.version)
  | payload {l : Layout} {e : InterpretError} (readable : ∃ major ∈ r.version.head?, 1 ≤ major)
    (layout : Layout.ofKind? r.kindOf = some l) (fault : r.PayloadFault l e) : FirstFault r e
  | unnamed {fields : List Field} (readable : ∃ major ∈ r.version.head?, 1 ≤ major)
    (kind : r.kindOf = .ordinaryClass) (carries : r.Carries fields)
    (allowed : Layout.ofClass.Allows r.strings.length fields) (unnamed : withTag .className fields = []) :
    FirstFault r .missingClassName

/-! ### One record -/

theorem carries_iff {fields : List Field} :
    r.Carries fields ↔ ∃ bytes, Payload.unpack r.payload = .ok bytes ∧ ofBytes bytes = (fields, none) := by
  simp only [Payload.unpack_eq_ok_iff]
  constructor
  · rintro ⟨narrow, complete⟩
    exact ⟨_, ⟨narrow, rfl⟩, complete⟩
  · rintro ⟨_, ⟨narrow, rfl⟩, complete⟩
    exact ⟨narrow, complete⟩

section

variable {δ : Type} {take : Array String → δ → Field → Except InterpretError δ} {start d : δ}

/-- The stages in which the fields of a payload are taken. -/
theorem takeFields_of_unpack {bytes : List UInt8} {fields : List Field} {broken : Option DecodeError}
    (narrow : Payload.unpack r.payload = .ok bytes) (read : ofBytes bytes = (fields, broken)) :
    r.takeFields take start = fields.foldlM (take r.strings.toArray) start >>= fun draft =>
      broken.elim (.ok draft) fun cause => .error (.malformedPayload cause) := by
  unfold takeFields
  rw [narrow]
  simp only [bind, Except.bind, read]
  cases fields.foldlM (take r.strings.toArray) start <;> cases broken <;> rfl

theorem takeFields_eq_ok_iff : r.takeFields take start = .ok d ↔
    ∃ fields, r.Carries fields ∧ fields.foldlM (take r.strings.toArray) start = .ok d := by
  constructor
  · intro taken
    cases narrow : Payload.unpack r.payload with
    | error e => simp [takeFields, narrow, bind, Except.bind] at taken
    | ok bytes =>
      obtain ⟨⟨fields, broken⟩, read⟩ : ∃ found, ofBytes bytes = found := ⟨_, rfl⟩
      rw [takeFields_of_unpack narrow read] at taken
      obtain ⟨d', ok, last⟩ := except_bind_eq_ok_iff.1 taken
      cases broken with
      | some cause => cases last
      | none =>
        obtain rfl := Except.ok.inj last
        exact ⟨fields, carries_iff.2 ⟨bytes, narrow, read⟩, ok⟩
  · rintro ⟨fields, carries, ok⟩
    rw [carries.takeFields_eq, ok]

theorem takeFields_eq_error_iff (take : Array String → δ → Field → Except InterpretError δ) (state : List Field → δ)
    (governs : l.Governs r.strings (take r.strings.toArray) state) :
    r.takeFields take (state []) = .error e ↔ r.PayloadFault l e := by
  constructor
  · intro failed
    cases narrow : Payload.unpack r.payload with
    | error e' =>
      obtain ⟨c, wide, rfl⟩ := Payload.unpack_eq_error_iff.1 narrow
      simp only [takeFields, narrow, bind, Except.bind, Except.error.injEq] at failed
      exact failed ▸ .character wide
    | ok bytes =>
      obtain ⟨⟨fields, broken⟩, read⟩ : ∃ found, ofBytes bytes = found := ⟨_, rfl⟩
      rw [takeFields_of_unpack narrow read] at failed
      -- A field that is refused comes before what breaks the payload off.
      rcases except_bind_eq_error_iff.1 failed with refused | ⟨d, ok, last⟩
      · obtain ⟨before, f, after, rfl, allowed, refused⟩ := governs.foldlM_eq_error_iff.1 refused
        exact .field narrow read allowed refused
      · obtain ⟨allowed, -⟩ := (governs.allowed _ _).1 ok
        cases broken with
        | none => cases last
        | some cause =>
          obtain rfl := Except.error.inj last
          exact .ending narrow read allowed
  · intro fault
    cases fault with
    | character wide =>
      have narrow := Payload.unpack_eq_error_iff.2 ⟨_, wide, rfl⟩
      simp only [takeFields, narrow, bind, Except.bind]
    | field narrow fields allowed refused =>
      rw [takeFields_of_unpack narrow fields, governs.foldlM_eq_error_iff.2 ⟨_, _, _, rfl, allowed, refused⟩]
      rfl
    | ending narrow broken allowed =>
      rw [takeFields_of_unpack narrow broken, (governs.allowed _ _).2 ⟨allowed, rfl⟩]
      rfl

end

theorem readMembers_eq_error_iff : r.readMembers = .error e ↔ r.PayloadFault (.ofMembers "package") e := by
  unfold readMembers
  rw [except_map_eq_error_iff]
  exact takeFields_eq_error_iff (fun strings => MemberDraft.take strings "package") _
    (Layout.governs_members r.strings "package")

theorem readLambda_eq_error_iff : r.readLambda = .error e ↔ r.PayloadFault .ofLambda e :=
  takeFields_eq_error_iff takeLambda _ (Layout.governs_lambda r.strings)

theorem readClass_eq_error_iff : r.readClass = .error e ↔ r.PayloadFault .ofClass e ∨
    e = .missingClassName ∧ ∃ fields, r.Carries fields ∧ Layout.ofClass.Allows r.strings.length fields ∧
      withTag .className fields = [] := by
  have governs := Layout.governs_class r.strings
  unfold readClass
  rw [except_bind_eq_error_iff]
  refine or_congr (takeFields_eq_error_iff ClassDraft.take _ governs) ?_
  simp only [takeFields_eq_ok_iff]
  constructor
  · rintro ⟨d, ⟨fields, carries, ok⟩, unfinished⟩
    obtain ⟨allowed, rfl⟩ := (governs.allowed _ _).1 ok
    cases named : withTag .className fields with
    | nil =>
      simp [ClassDraft.finish, ClassDraft.ofFields, named] at unfinished
      exact ⟨unfinished.symm, fields, carries, allowed, named⟩
    | cons name rest => simp [ClassDraft.finish, ClassDraft.ofFields, named] at unfinished
  · rintro ⟨rfl, fields, carries, allowed, named⟩
    refine ⟨_, ⟨fields, carries, (governs.allowed _ _).2 ⟨allowed, rfl⟩⟩, ?_⟩
    simp [ClassDraft.finish, ClassDraft.ofFields, named]

private theorem firstFault_iff_of_readable (readable : ∃ major ∈ r.version.head?, 1 ≤ major) : r.FirstFault e ↔
    (∃ l, Layout.ofKind? r.kindOf = some l ∧ r.PayloadFault l e) ∨ r.kindOf = .ordinaryClass ∧ e = .missingClassName ∧
      ∃ fields, r.Carries fields ∧ Layout.ofClass.Allows r.strings.length fields ∧ withTag .className fields = [] := by
  constructor
  · intro fault
    cases fault with
    | version outdated => exact absurd readable outdated
    | payload _ layout fault => exact .inl ⟨_, layout, fault⟩
    | unnamed _ kind carries allowed unnamed => exact .inr ⟨kind, rfl, _, carries, allowed, unnamed⟩
  · rintro (⟨l, layout, fault⟩ | ⟨kind, rfl, fields, carries, allowed, unnamed⟩)
    · exact .payload readable layout fault
    · exact .unnamed readable kind carries allowed unnamed

/-- Interpretation fails with the first fault, and only with that. -/
theorem interpret_eq_error_iff : r.interpret = .error e ↔ r.FirstFault e := by
  unfold interpret
  by_cases readable : ∃ major ∈ r.version.head?, 1 ≤ major
  · rw [if_pos (versionIsReadable_iff.2 readable), firstFault_iff_of_readable readable]
    cases r.kindOf with
    | ordinaryClass => exact (except_map_eq_error_iff.trans readClass_eq_error_iff).trans (by simp [Layout.ofKind?])
    | fileFacade | multiFilePart =>
      exact (except_map_eq_error_iff.trans readMembers_eq_error_iff).trans (by simp [Layout.ofKind?])
    | syntheticClass => exact (except_map_eq_error_iff.trans readLambda_eq_error_iff).trans (by simp [Layout.ofKind?])
    | multiFileFacade | unknown => simp [Layout.ofKind?, pure, Except.pure]
  · rw [if_neg (mt versionIsReadable_iff.1 readable), Except.error.injEq]
    constructor
    · rintro rfl
      exact .version readable
    · intro fault
      cases fault with
      | version => rfl
      | payload readable' => exact absurd readable' readable
      | unnamed readable' => exact absurd readable' readable

/-! ### A payload that goes on -/

/-- The record with more strings behind its payload. -/
def continued (r : Record) (more : List String) : Record := { r with payload := r.payload ++ more }

section

variable {more : List String} {bytes : List UInt8}

theorem PayloadFault.ne_incompatibleVersion (fault : r.PayloadFault l e) (version : List Int32) :
    e ≠ .incompatibleVersion version := by
  rintro rfl
  cases fault with
  | field _ _ _ refused => rcases Layout.eq_of_refusal?_eq_some refused with h | h | h | h | h | h | h <;> cases h

/-- A fault of the fields or the end is found behind characters that all are bytes. -/
theorem PayloadFault.exists_unpack (fault : r.PayloadFault l e) (later : ∀ c, e ≠ .characterOutOfRange c) :
    ∃ bytes, Payload.unpack r.payload = .ok bytes := by
  cases fault with
  | character => exact absurd rfl (later _)
  | field narrow => exact ⟨_, narrow⟩
  | ending narrow => exact ⟨_, narrow⟩

theorem payloadFault_continued_character (narrow : Payload.unpack r.payload = .ok bytes) {c : Char}
    (wide : (Payload.chars more).find? (fun c => 255 < c.toNat) = some c) :
    (r.continued more).PayloadFault l (.characterOutOfRange c) := by
  refine .character ?_
  show (Payload.chars (r.payload ++ more)).find? _ = _
  rw [Payload.chars_append, List.find?_append, Payload.find?_chars_eq_none_iff.2 (Payload.unpack_eq_ok_iff.1 narrow).1,
    Option.none_or, wide]

theorem PayloadFault.continued_of_wide {c : Char} (fault : r.PayloadFault l (.characterOutOfRange c)) :
    (r.continued more).PayloadFault l (.characterOutOfRange c) := by
  cases fault with
  | character wide =>
    refine .character ?_
    show (Payload.chars (r.payload ++ more)).find? _ = _
    rw [Payload.chars_append, List.find?_append, wide, Option.some_or]
  | field _ _ _ refused => rcases Layout.eq_of_refusal?_eq_some refused with h | h | h | h | h | h | h <;> cases h

/-- Where only bytes follow, a fault other than the end of the payload stays. -/
theorem PayloadFault.continued (fault : r.PayloadFault l e) (narrowMore : ∀ c ∈ Payload.chars more, c.toNat ≤ 255)
    (notEnd : ∀ context, e ≠ .malformedPayload (.endOfInput context)) : (r.continued more).PayloadFault l e := by
  obtain ⟨behind, unpacked⟩ : ∃ behind, Payload.unpack more = .ok behind :=
    ⟨_, Payload.unpack_eq_ok_iff.2 ⟨narrowMore, rfl⟩⟩
  have together {bytes : List UInt8} (narrow : Payload.unpack r.payload = .ok bytes) :
      Payload.unpack (r.continued more).payload = .ok (bytes ++ behind) := by
    show Payload.unpack (r.payload ++ more) = _
    rw [Payload.unpack_append_of_eq_ok narrow, unpacked]
    rfl
  cases fault with
  | character wide => exact continued_of_wide (.character wide)
  | @field bytes before after f broken _ narrow fields allowed refused =>
    -- the field that is refused is complete, so the new bytes stand behind it
    have complete := isPrefix_ofBytes_append bytes behind
    rw [fields] at complete
    obtain ⟨others, split⟩ := complete
    have longer : (ofBytes (bytes ++ behind)).1 = before ++ f :: (after ++ others) := by
      rw [← split]
      simp
    exact .field (together narrow) (Prod.ext longer rfl) allowed refused
  | @ending bytes fields cause narrow broken allowed =>
    have notEnd' : cause.isEnd = false := by
      rw [Bool.eq_false_iff]
      intro atEnd
      obtain ⟨context, rfl⟩ := DecodeError.isEnd_iff.1 atEnd
      exact notEnd context rfl
    exact .ending (together narrow) (ofBytes_append_of_broken broken notEnd' behind) allowed

end

/-- A record fails with its first fault: the version comes before all characters of the payload, these before the
fields, and the fields are taken from left to right up to the end; that a class has no name is said where nothing else
is wrong.  If the payload goes on, a fault of the version or of a character stays.  Any other fault gives way to the
first new character that is no byte.  Without such a character it stays, unless the name was missing or the payload had
ended inside a field. -/
theorem interpret_continued (r : Record) (more : List String) (e : InterpretError) (failed : r.interpret = .error e) :
    (∀ e', r.FirstFault e' ↔ e' = e) ∧
    (e = .incompatibleVersion r.version ∨ (∃ c, e = .characterOutOfRange c) →
      (r.continued more).interpret = .error e) ∧
    (¬ (e = .incompatibleVersion r.version ∨ ∃ c, e = .characterOutOfRange c) →
      (∀ c, (Payload.chars more).find? (fun c => 255 < c.toNat) = some c →
        (r.continued more).interpret = .error (.characterOutOfRange c)) ∧
      ((∀ c ∈ Payload.chars more, c.toNat ≤ 255) → e ≠ .missingClassName →
        (∀ context, e ≠ .malformedPayload (.endOfInput context)) → (r.continued more).interpret = .error e)) := by
  refine ⟨?_, ?_, ?_⟩
  · intro e'
    rw [← interpret_eq_error_iff, failed, Except.error.injEq, eq_comm]
  · intro early
    rw [interpret_eq_error_iff] at failed ⊢
    cases failed with
    | version outdated => exact .version outdated
    | payload readable layout fault =>
      rcases early with h | ⟨c, rfl⟩
      · exact absurd h (fault.ne_incompatibleVersion _)
      · exact .payload readable layout fault.continued_of_wide
    | unnamed => rcases early with h | ⟨c, h⟩ <;> cases h
  · intro late
    simp only [interpret_eq_error_iff] at failed ⊢
    constructor
    · intro c wide
      cases failed with
      | version => exact absurd (.inl rfl) late
      | payload readable layout fault =>
        obtain ⟨bytes, narrow⟩ := fault.exists_unpack fun c h => late (.inr ⟨c, h⟩)
        exact .payload readable layout (payloadFault_continued_character narrow wide)
      | unnamed readable kind carries =>
        obtain ⟨bytes, narrow, -⟩ := carries_iff.1 carries
        have layout : Layout.ofKind? (r.continued more).kindOf = some .ofClass := congrArg Layout.ofKind? kind
        exact .payload readable layout (payloadFault_continued_character narrow wide)
    · intro narrowMore named notEnd
      cases failed with
      | version outdated => exact .version outdated
      | payload readable layout fault => exact .payload readable layout (fault.continued narrowMore notEnd)
      | unnamed => exact absurd rfl named

/-- A supertype that refers to nothing is reported also where the payload breaks off behind it, and it gives way to a
character that is no byte. -/
theorem interpret_continued_supertype :
    let r : Record := {
      kind := 1, version := [1, 9, 0], strings := ["A"], payload := ["\x01\x00\x03", "\x05"] }
    r.interpret = .error (.stringIndexOutOfBounds 5 1) ∧
      (r.continued ["\x63", "\x07\u0080"]).interpret = .error (.stringIndexOutOfBounds 5 1) ∧
      (r.continued ["\x09Ā", "Ω"]).interpret = .error (.characterOutOfRange 'Ā') := by
  intro r
  have narrow : Payload.unpack r.payload = .ok ([⟨1, 0⟩, ⟨3, 5⟩].flatMap Field.form) :=
    Payload.unpack_eq_ok_iff.2 ⟨Payload.find?_chars_eq_none_iff.1 (by decide +kernel), by decide +kernel⟩
  have fields : ofBytes ([⟨1, 0⟩, ⟨3, 5⟩].flatMap Field.form) = ([⟨1, 0⟩] ++ ⟨3, 5⟩ :: [], none) := ofBytes_form _
  have allowed : Layout.ofClass.Allows 1 [⟨1, 0⟩] :=
    Layout.allows_ofClass_iff.2 ⟨by decide +kernel, by decide +kernel⟩
  have failed : r.interpret = .error (.stringIndexOutOfBounds 5 1) :=
    interpret_eq_error_iff.2 (.payload ⟨1, rfl, by decide⟩ rfl (.field narrow fields allowed (by decide +kernel)))
  refine ⟨failed, ?_, ?_⟩
  · have narrowMore : ∀ c ∈ Payload.chars ["\x63", "\x07\u0080"], c.toNat ≤ 255 :=
      Payload.find?_chars_eq_none_iff.1 (by decide +kernel)
    exact ((interpret_continued r ["\x63", "\x07\u0080"] _ failed).2.2 (by simp)).2 narrowMore nofun nofun
  · exact ((interpret_continued r ["\x09Ā", "Ω"] _ failed).2.2 (by simp)).1 'Ā' (by decide +kernel)

end ClassLedger.Record
