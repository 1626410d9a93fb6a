import ClassLedger.Proofs.Record.Form
import ClassLedger.Proofs.Snapshot.Entries
import ClassLedger.Snapshot.Codec

/-!
# The plain form of a list of entries

The bytes of some entries in any order, as they stand between the header and the digest, and the lengths in them.  A
snapshot is written as the plain form of its entries in ascending order.
-/

namespace ClassLedger.Snapshot

open Wire

/-- The bytes of an entry: its name and its record. -/
def entryForm (e : String × Record) : List UInt8 := stringForm e.1 ++ e.2.form

/-- The lengths in an entry. -/
def entryMeasures (e : String × Record) : List Measure := stringMeasure "class name" e.1 :: e.2.measures

/-- The header, and what comes behind it. -/
def headed (content : List UInt8) : List UInt8 := magic ++ formatVersion :: content

/-- Some content between the header and the digest of everything before it. -/
def sealed (p : Primitives) (content : List UInt8) : List UInt8 := headed content ++ (p.digest (headed content)).toList

/-- The plain form of some entries. -/
def plainForm (p : Primitives) (entries : List (String × Record)) : List UInt8 :=
  sealed p (listForm entryForm entries)

/-- The limits within which an entry is read. -/
def EntryWithinLimits (e : String × Record) : Prop := e.1.utf8ByteSize ≤ Limits.stringBytes ∧ e.2.WithinLimits

theorem entryWithinLimits_iff {e : String × Record} : EntryWithinLimits e ↔ ∀ m ∈ entryMeasures e, m.Within := by
  rw [EntryWithinLimits, Record.withinLimits_iff, entryMeasures, List.forall_mem_cons]
  rfl

theorem forall_entryWithinLimits_iff {entries : List (String × Record)} :
    (∀ e ∈ entries, EntryWithinLimits e) ↔ ∀ m ∈ entries.flatMap entryMeasures, m.Within := by
  simp only [entryWithinLimits_iff, List.mem_flatMap]
  exact ⟨fun h m ⟨e, he, hm⟩ => h e he m hm, fun h e he m hm => h m ⟨e, he, hm⟩⟩

/-! ### Sizes -/

@[simp]
theorem length_headed (content : List UInt8) : (headed content).length = 5 + content.length := by
  simp [headed, magic]
  omega

@[simp]
theorem length_sealed (p : Primitives) (content : List UInt8) : (sealed p content).length = 37 + content.length := by
  simp [sealed]
  omega

/-- No length in an entry is larger than the entry. -/
theorem length_le_length_entryForm {e : String × Record} {m : Measure} (hm : m ∈ entryMeasures e) :
    m.length ≤ (entryForm e).length := by
  simp only [entryForm, List.length_append, length_stringForm]
  rcases List.mem_cons.1 hm with rfl | hm
  · show e.1.utf8ByteSize ≤ _
    omega
  · have := Record.length_le_length_form hm
    omega

/-- The number of entries and all lengths fit four bytes where the plain form does not exceed the size of a snapshot. -/
theorem fits_of_length_plainForm {p : Primitives} {entries : List (String × Record)}
    (h : (plainForm p entries).length ≤ Limits.snapshotBytes) :
    entries.length ≤ Limits.prefixValue ∧ ∀ e ∈ entries, ∀ m ∈ entryMeasures e, m.Fits := by
  have bound : Limits.snapshotBytes ≤ Limits.prefixValue := by decide
  rw [plainForm, length_sealed] at h
  constructor
  · have count : entries.length ≤ (listForm entryForm entries).length := by
      refine length_le_length_listForm fun e _ => ?_
      rw [entryForm, List.length_append, length_stringForm]
      omega
    omega
  · intro e he m hm
    have inEntry := length_le_length_entryForm hm
    have inList : (entryForm e).length ≤ _ := length_form_le_length_listForm he
    unfold Measure.Fits
    omega

theorem prefixFree_entry : PrefixFree entryForm fun e => ∀ m ∈ entryMeasures e, m.Fits := by
  intro e f a b fits fits' same
  obtain ⟨name, record⟩ := List.forall_mem_cons.1 fits
  obtain ⟨name', record'⟩ := List.forall_mem_cons.1 fits'
  simp only [entryForm, List.append_assoc] at same
  obtain ⟨nameSame, same⟩ := prefixFree_string name name' same
  obtain ⟨recordSame, rest⟩ := Record.prefixFree record record' same
  exact ⟨Prod.ext nameSame recordSame, rest⟩

/-- Plain forms that do not exceed the size of a snapshot belong to the same entries in the same order. -/
theorem plainForm_injective {p : Primitives} {entries entries' : List (String × Record)}
    (small : (plainForm p entries).length ≤ Limits.snapshotBytes) (same : plainForm p entries = plainForm p entries') :
    entries = entries' := by
  have fits := fits_of_length_plainForm small
  have fits' := fits_of_length_plainForm (same ▸ small)
  -- All digests have the same length, so the parts before them are equal.
  have lengths := congrArg List.length same
  simp only [plainForm, length_sealed] at lengths
  have headedSame := (List.append_inj same (by simp only [length_headed]; omega)).1
  have listSame : listForm entryForm entries = listForm entryForm entries' := by
    simpa [headed] using headedSame
  exact (prefixFree_entry.list fits fits' (congrArg (· ++ []) listSame)).1

/-! ### Writing -/

theorem writes_entry (e : String × Record) :
    Writes (writeEntry e) (entryForm e) (∀ m ∈ entryMeasures e, m.Fits) := by
  refine (writes_string.seq e.2.writes).congr ?_
  rw [entryMeasures, List.forall_mem_cons]
  rfl

theorem writes_body (s : Snapshot) :
    Writes s.writeBody (headed (listForm entryForm s.entries))
      (s.size ≤ Limits.snapshotEntries ∧ ∀ e ∈ s.entries, ∀ m ∈ entryMeasures e, m.Fits) := by
  refine (writes_bytes.seq (writes_length.seq (writes_items writes_entry s.entries))).congr ?_
  have bound : min Limits.snapshotEntries Limits.prefixValue = Limits.snapshotEntries := by decide
  rw [bound, true_and]

/-- A snapshot is written as the plain form of its entries, if there are not too many of them and the form is not too
large. -/
theorem encodePlain_eq_ok_iff {p : Primitives} {s : Snapshot} {bytes : List UInt8} :
    s.encodePlain p = .ok bytes ↔
      s.size ≤ Limits.snapshotEntries ∧ (plainForm p s.entries).length ≤ Limits.snapshotBytes ∧
        bytes = plainForm p s.entries := by
  unfold encodePlain
  constructor
  · intro h
    cases body : written s.writeBody with
    | error e =>
      rw [body] at h
      cases h
    | ok content =>
      rw [body] at h
      obtain ⟨⟨size, -⟩, rfl⟩ := (written_eq_ok_iff s.writes_body).1 body
      change (if _ then _ else _) = _ at h
      split at h
      · cases h
      · rename_i small
        obtain rfl := Except.ok.inj h
        exact ⟨size, Nat.not_lt.1 small, rfl⟩
  · rintro ⟨size, small, rfl⟩
    rw [(written_eq_ok_iff s.writes_body).2 ⟨⟨size, (fits_of_length_plainForm small).2⟩, rfl⟩]
    change (if Limits.snapshotBytes < (plainForm p s.entries).length then _ else pure (plainForm p s.entries)) = _
    rw [if_neg (Nat.not_lt.2 small)]
    rfl

theorem encode_plain (p : Primitives) (s : Snapshot) (level : Int32) : s.encode p { level } = s.encodePlain p := by
  unfold encode
  cases s.encodePlain p <;> rfl

end ClassLedger.Snapshot
