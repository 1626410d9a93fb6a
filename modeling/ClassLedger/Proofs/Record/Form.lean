import ClassLedger.Proofs.Wire.PrefixFree
import ClassLedger.Proofs.Wire.Reading
import ClassLedger.Proofs.Wire.Writing
import ClassLedger.Record.Codec

/-!
# The byte form of a record

The seven fields of a record one behind the other, with the lengths that the form holds in their order.  A record is
written as its form if its lengths fit four bytes, and read from it if they are within the limits of their fields.
-/

namespace ClassLedger.Record

open Wire

/-- The bytes of a record. -/
def form (r : Record) : List UInt8 :=
  bigEndian r.kind ++ (listForm bigEndian r.version ++ (listForm stringForm r.payload ++
    (listForm stringForm r.strings ++ (stringForm r.extraText ++ (stringForm r.packageName ++
      bigEndian r.extraFlags)))))

/-- The measure of the version. -/
def versionMeasure (r : Record) : Measure where
  field := "version"
  length := r.version.length
  limit := Limits.versionParts

/-- The lengths in the form of a record: the number of items of a collection, then the lengths of its strings. -/
def measures (r : Record) : List Measure :=
  r.versionMeasure :: (stringsMeasures "data1" r.payload ++ (stringsMeasures "data2" r.strings ++
    [stringMeasure "extra_string" r.extraText, stringMeasure "package_name" r.packageName]))

/-- Whether all lengths of a record fit four bytes. -/
def Fits (r : Record) : Prop := ∀ m ∈ r.measures, m.Fits

/-- The limits within which a record is read. -/
structure WithinLimits (r : Record) : Prop where
  version : r.version.length ≤ Limits.versionParts
  payload : r.payload.length ≤ Limits.elements
  strings : r.strings.length ≤ Limits.elements
  payloadTexts : ∀ s ∈ r.payload, s.utf8ByteSize ≤ Limits.stringBytes
  stringsTexts : ∀ s ∈ r.strings, s.utf8ByteSize ≤ Limits.stringBytes
  extraText : r.extraText.utf8ByteSize ≤ Limits.stringBytes
  packageName : r.packageName.utf8ByteSize ≤ Limits.stringBytes

theorem withinLimits_iff {r : Record} : r.WithinLimits ↔ ∀ m ∈ r.measures, m.Within := by
  simp only [measures, stringsMeasures, List.cons_append, List.forall_mem_cons, List.forall_mem_append,
    List.forall_mem_map, Measure.Within, versionMeasure, stringMeasure, List.not_mem_nil, false_implies, implies_true,
    and_true]
  constructor
  · intro h
    exact ⟨h.version, h.payload, h.payloadTexts, h.strings, h.stringsTexts, h.extraText, h.packageName⟩
  · rintro ⟨version, payload, payloadTexts, strings, stringsTexts, extraText, packageName⟩
    exact { version, payload, strings, payloadTexts, stringsTexts, extraText, packageName }

theorem WithinLimits.fits {r : Record} (h : r.WithinLimits) : r.Fits :=
  fun m hm => (withinLimits_iff.1 h m hm).fits

theorem fits_iff {r : Record} : r.Fits ↔
    r.version.length ≤ Limits.prefixValue ∧
    (r.payload.length ≤ Limits.prefixValue ∧ ∀ s ∈ r.payload, s.utf8ByteSize ≤ Limits.prefixValue) ∧
    (r.strings.length ≤ Limits.prefixValue ∧ ∀ s ∈ r.strings, s.utf8ByteSize ≤ Limits.prefixValue) ∧
    r.extraText.utf8ByteSize ≤ Limits.prefixValue ∧ r.packageName.utf8ByteSize ≤ Limits.prefixValue := by
  simp only [Fits, measures, stringsMeasures, List.cons_append, List.forall_mem_cons, List.forall_mem_append,
    List.forall_mem_map, Measure.Fits, versionMeasure, stringMeasure, List.not_mem_nil, false_implies, implies_true,
    and_true, and_assoc]

/-- No length in the form of a record is larger than the form. -/
theorem length_le_length_form {r : Record} {m : Measure} (hm : m ∈ r.measures) : m.length ≤ r.form.length := by
  have total : r.form.length = 4 + ((listForm bigEndian r.version).length + ((listForm stringForm r.payload).length +
      ((listForm stringForm r.strings).length + ((stringForm r.extraText).length +
        ((stringForm r.packageName).length + 4))))) := by
    simp only [form, List.length_append, length_bigEndian]
  have texts {field : String} {items : List String} {m : Measure} (hm : m ∈ stringsMeasures field items) :
      m.length ≤ (listForm stringForm items).length := by
    rcases List.mem_cons.1 hm with rfl | hm
    · refine length_le_length_listForm fun s _ => ?_
      rw [length_stringForm]
      omega
    · obtain ⟨s, hs, rfl⟩ := List.mem_map.1 hm
      have part : (stringForm s).length ≤ _ := length_form_le_length_listForm hs
      rw [length_stringForm] at part
      show s.utf8ByteSize ≤ _
      omega
  simp only [measures, List.mem_cons, List.mem_append, List.not_mem_nil, or_false] at hm
  rcases hm with rfl | hm | hm | rfl | rfl
  · have parts : r.version.length ≤ (listForm bigEndian r.version).length :=
      length_le_length_listForm fun _ _ => by simp
    show r.version.length ≤ _
    omega
  · have := texts hm
    omega
  · have := texts hm
    omega
  · simp only [stringMeasure, length_stringForm] at total ⊢
    omega
  · simp only [stringMeasure, length_stringForm] at total ⊢
    omega

/-- A record whose lengths fit is determined by its form, and so is where the form ends. -/
theorem prefixFree : PrefixFree form Fits := by
  intro r r' a b fits fits' same
  rw [fits_iff] at fits fits'
  obtain ⟨version, payload, strings, extraText, packageName⟩ := fits
  obtain ⟨version', payload', strings', extraText', packageName'⟩ := fits'
  simp only [form, List.append_assoc] at same
  obtain ⟨kindSame, same⟩ := prefixFree_int32 trivial trivial same
  obtain ⟨versionSame, same⟩ :=
    prefixFree_int32.list ⟨version, fun _ _ => trivial⟩ ⟨version', fun _ _ => trivial⟩ same
  obtain ⟨payloadSame, same⟩ := prefixFree_string.list payload payload' same
  obtain ⟨stringsSame, same⟩ := prefixFree_string.list strings strings' same
  obtain ⟨extraTextSame, same⟩ := prefixFree_string extraText extraText' same
  obtain ⟨packageNameSame, same⟩ := prefixFree_string packageName packageName' same
  obtain ⟨extraFlagsSame, rest⟩ := prefixFree_int32 trivial trivial same
  refine ⟨?_, rest⟩
  cases r
  cases r'
  simp_all

/-! ### Writing -/

/-- A record whose lengths fit is written as its form, and no other record is written. -/
theorem writes (r : Record) : Writes r.write r.form r.Fits := by
  have strings (field : String) (items : List String) :
      Writes (writeCollection items Limits.prefixValue field fun s => writeString s field)
        (listForm stringForm items) _ :=
    writes_collection (fun _ => writes_string) items _
  have parts : Writes (writeCollection r.version Limits.prefixValue "version" fun part => writeInt32 part "version")
      (listForm bigEndian r.version) _ := writes_collection (fun _ => writes_int32) _ _
  refine Writes.congr (writes_int32.seq (parts.seq ((strings "data1" r.payload).seq ((strings "data2" r.strings).seq
    (writes_string.seq (writes_string.seq writes_int32)))))) ?_
  simp [fits_iff]

theorem encode_eq_ok_iff {r : Record} {bytes : List UInt8} : r.encode = .ok bytes ↔ r.Fits ∧ bytes = r.form :=
  written_eq_ok_iff r.writes

theorem map_encode_eq_ok {records : List Record} {encodings : List (List UInt8)}
    (encoded : records.map encode = encodings.map .ok) : encodings = records.map form ∧ ∀ r ∈ records, r.Fits := by
  induction records generalizing encodings with
  | nil => simpa using encoded
  | cons r rest ih =>
    cases encodings with
    | nil => cases encoded
    | cons bytes others =>
      rw [List.map_cons, List.map_cons, List.cons.injEq] at encoded
      obtain ⟨fits, rfl⟩ := encode_eq_ok_iff.1 encoded.1
      obtain ⟨rfl, fitsRest⟩ := ih encoded.2
      exact ⟨rfl, List.forall_mem_cons.2 ⟨fits, fitsRest⟩⟩

/-! ### Reading -/

private theorem reads_version :
    Reads (readCollection Limits.versionParts "version" (Input.readInt32 "version")) (listForm bigEndian)
      fun version => { field := "version", length := version.length, limit := Limits.versionParts } :: [] := by
  have : Reads (readCollection Limits.versionParts "version" (Input.readInt32 "version")) (listForm bigEndian) _ :=
    reads_collection (reads_int32 "version") "version" (by decide)
  have none (version : List Int32) : version.flatMap (fun _ => ([] : List Measure)) = [] := by
    simp [List.flatMap_eq_nil_iff]
  simpa only [none] using this

theorem reads_strings (field : String) :
    Reads (readCollection Limits.elements field (readString field)) (listForm stringForm) (stringsMeasures field) := by
  unfold stringsMeasures
  simp only [List.map_eq_flatMap]
  exact reads_collection (reads_string field) field (by decide)

theorem reads : Reads (read : Read Slice Record) form measures where
  sound {s t r} h := by
    unfold read at h
    obtain ⟨kind, s₁, kindRead, h⟩ := bind_eq_ok_iff.1 h
    obtain ⟨version, s₂, versionRead, h⟩ := bind_eq_ok_iff.1 h
    obtain ⟨payload, s₃, payloadRead, h⟩ := bind_eq_ok_iff.1 h
    obtain ⟨strings, s₄, stringsRead, h⟩ := bind_eq_ok_iff.1 h
    obtain ⟨extraText, s₅, extraTextRead, h⟩ := bind_eq_ok_iff.1 h
    obtain ⟨packageName, s₆, packageNameRead, h⟩ := bind_eq_ok_iff.1 h
    obtain ⟨extraFlags, s₇, extraFlagsRead, h⟩ := bind_eq_ok_iff.1 h
    obtain ⟨rfl, rfl⟩ := EStateM.Result.ok.inj h
    obtain ⟨path₁, -⟩ := (reads_int32 _).sound kindRead
    obtain ⟨path₂, within₂⟩ := reads_version.sound versionRead
    obtain ⟨path₃, within₃⟩ := (reads_strings _).sound payloadRead
    obtain ⟨path₄, within₄⟩ := (reads_strings _).sound stringsRead
    obtain ⟨path₅, within₅⟩ := (reads_string _).sound extraTextRead
    obtain ⟨path₆, within₆⟩ := (reads_string _).sound packageNameRead
    obtain ⟨path₇, -⟩ := (reads_int32 _).sound extraFlagsRead
    refine ⟨path₁.append (path₂.append (path₃.append (path₄.append (path₅.append (path₆.append path₇))))), ?_⟩
    exact List.forall_mem_append.2 ⟨within₂, List.forall_mem_append.2 ⟨within₃, List.forall_mem_append.2
      ⟨within₄, List.forall_mem_append.2 ⟨within₅, within₆⟩⟩⟩⟩
  outcome {s t r} path fits := by
    obtain ⟨s₁, path₁, path⟩ := Slice.over_append_iff.1 path
    obtain ⟨s₂, path₂, path⟩ := Slice.over_append_iff.1 path
    obtain ⟨s₃, path₃, path⟩ := Slice.over_append_iff.1 path
    obtain ⟨s₄, path₄, path⟩ := Slice.over_append_iff.1 path
    obtain ⟨s₅, path₅, path⟩ := Slice.over_append_iff.1 path
    obtain ⟨s₆, path₆, path₇⟩ := Slice.over_append_iff.1 path
    have order : r.measures = [] ++ ([r.versionMeasure] ++ (stringsMeasures "data1" r.payload ++
        (stringsMeasures "data2" r.strings ++ ([stringMeasure "extra_string" r.extraText] ++
          ([stringMeasure "package_name" r.packageName] ++ ([] ++ [])))))) := rfl
    rw [order] at fits ⊢
    obtain ⟨-, fits⟩ := List.forall_mem_append.1 fits
    obtain ⟨fits₂, fits⟩ := List.forall_mem_append.1 fits
    obtain ⟨fits₃, fits⟩ := List.forall_mem_append.1 fits
    obtain ⟨fits₄, fits⟩ := List.forall_mem_append.1 fits
    obtain ⟨fits₅, fits⟩ := List.forall_mem_append.1 fits
    obtain ⟨fits₆, -⟩ := List.forall_mem_append.1 fits
    unfold read
    refine ((reads_int32 _).outcome path₁ nofun).bind ?_
    refine (reads_version.outcome path₂ fits₂).bind ?_
    refine ((reads_strings "data1").outcome path₃ fits₃).bind ?_
    refine ((reads_strings "data2").outcome path₄ fits₄).bind ?_
    refine ((reads_string _).outcome path₅ fits₅).bind ?_
    refine ((reads_string _).outcome path₆ fits₆).bind ?_
    refine ((reads_int32 _).outcome path₇ nofun).bind ?_
    exact .of_eq_ok rfl

end ClassLedger.Record
