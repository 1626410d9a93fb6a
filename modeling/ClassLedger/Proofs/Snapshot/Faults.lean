import ClassLedger.Proofs.Snapshot.Reading
import ClassLedger.Proofs.Wire.Forward
import ClassLedger.Snapshot.Standard

/-!
# Which fault of a plain snapshot is reported

Plain bytes can have several faults, and the one that is reported is the first in the order of reading: the version, the
room for a digest, the digest, the number of entries, then entry by entry the name, the record and whether an entry
before had the name, and last the bytes behind the entries.  Entries are only looked at where the digest fits, and
reading them never reaches the digest.
-/

namespace ClassLedger.Snapshot

open Wire

variable {p : Primitives} {bytes : List UInt8} {s s₀ : Snapshot} {entries before : List (String × Record)}
  {start a b c t u : Slice} {left : Nat} {name : String} {r : Record} {e : DecodeError}

/-! ### The faults -/

/-- Some entries are read up to `t`, with distinct names and within all limits, and the number that stands before them
announces `left` more. -/
structure Passed (start : Slice) (before : List (String × Record)) (left : Nat) (t : Slice) : Prop where
  path : start.Over (lengthForm (before.length + left) ++ before.flatMap entryForm) t
  count : before.length + left ≤ Limits.snapshotEntries
  within : ∀ e ∈ before, EntryWithinLimits e
  distinct : (before.map (·.1)).Nodup

/-- The first fault of what stands between header and digest, and the place up to which it is read then. -/
inductive ContentFault (start : Slice) : DecodeError → Slice → Prop
  | count {e : DecodeError} {t : Slice}
    (refused : readLength Limits.snapshotEntries "snapshot entries" start = .error e t) : ContentFault start e t
  | name {before : List (String × Record)} {left : Nat} {e : DecodeError} {t u : Slice}
    (passed : Passed start before (left + 1) t) (refused : readString "class name" t = .error e u) :
    ContentFault start e u
  | record {before : List (String × Record)} {left : Nat} {name : String} {e : DecodeError} {t u v : Slice}
    (passed : Passed start before (left + 1) t) (named : readString "class name" t = .ok name u)
    (refused : Record.read u = .error e v) : ContentFault start e v
  | duplicate {before : List (String × Record)} {left : Nat} {name : String} {r : Record} {t u v : Slice}
    (passed : Passed start before (left + 1) t) (named : readString "class name" t = .ok name u)
    (read : Record.read u = .ok r v) (repeated : name ∈ before.map (·.1)) :
    ContentFault start (.duplicateEntry name) v
  | trailing {entries : List (String × Record)} {t : Slice} (passed : Passed start entries 0 t) (behind : t.rest ≠ []) :
    ContentFault start (.trailingBytes t.rest.length) t

/-- What stands between header and digest. -/
def contentOf (bytes : List UInt8) : Slice := ⟨(covered bytes).drop 5, 5⟩

/-- The bytes have the version that is read, and room for a digest behind the header. -/
structure Framed (bytes : List UInt8) : Prop where
  version : bytes[4]? = some formatVersion
  room : 5 + digestBytes ≤ bytes.length

/-- The last bytes are the digest of those before. -/
def Intact (p : Primitives) (bytes : List UInt8) : Prop :=
  bytes.drop (bytes.length - digestBytes) = (p.digest (covered bytes)).toList

/-- The fault of plain bytes that comes first in the order of reading. -/
inductive FirstFault (p : Primitives) (bytes : List UInt8) : DecodeError → Prop
  | unversioned (short : bytes.length = 4) : FirstFault p bytes (.endOfInput "version")
  | version {version : UInt8} (found : bytes[4]? = some version) (foreign : version ≠ formatVersion) :
    FirstFault p bytes (.unsupportedVersion version)
  | room (found : bytes[4]? = some formatVersion) (short : bytes.length < 5 + digestBytes) :
    FirstFault p bytes (.endOfInput "checksum")
  | digest (framed : Framed bytes) (damaged : ¬ Intact p bytes) : FirstFault p bytes .checksumMismatch
  | content {e : DecodeError} {t : Slice} (framed : Framed bytes) (intact : Intact p bytes)
    (fault : ContentFault (contentOf bytes) e t) : FirstFault p bytes e

/-! ### Entry by entry -/

theorem readEntries_succ_of_new (named : readString "class name" a = .ok name b) (read : Record.read b = .ok r c)
    (new : name ∉ s.names) : readEntries (left + 1) s a = readEntries left (s.insert name r) c := by
  rw [readEntries, bind_of_eq_ok named, bind_of_eq_ok read, if_neg (by rwa [contains_iff])]

/-- The faults of one entry, and the entries after it. -/
theorem readEntries_succ_eq_error_iff : readEntries (left + 1) s a = .error e u ↔
    readString "class name" a = .error e u ∨ ∃ name b, readString "class name" a = .ok name b ∧
      (Record.read b = .error e u ∨ ∃ r c, Record.read b = .ok r c ∧
        (name ∈ s.names ∧ e = .duplicateEntry name ∧ u = c ∨
          name ∉ s.names ∧ readEntries left (s.insert name r) c = .error e u)) := by
  rw [readEntries, bind_eq_error_iff]
  simp only [bind_eq_error_iff]
  refine or_congr_right (exists₂_congr fun name b => and_congr_right fun _ => ?_)
  refine or_congr_right (exists₂_congr fun r c => and_congr_right fun _ => ?_)
  by_cases repeated : name ∈ s.names
  · rw [if_pos (contains_iff.2 repeated)]
    simp [repeated, throw_eq_error_iff]
  · rw [if_neg (by rwa [contains_iff])]
    simp [repeated]

/-- Entries with new names that stand ahead are read, however many come after them. -/
theorem readEntries_of_over (perm : s.entries.Perm (entries ++ s₀.entries))
    (path : a.Over (entries.flatMap entryForm) t) (within : ∀ e ∈ entries, EntryWithinLimits e) :
    readEntries (entries.length + left) s₀ a = readEntries left s t := by
  induction entries generalizing s₀ a with
  | nil =>
    obtain rfl := Slice.over_nil_iff.1 path
    obtain rfl := eq_of_perm perm
    rw [List.length_nil, Nat.zero_add]
  | cons e rest ih =>
    obtain ⟨name, r⟩ := e
    obtain ⟨new, perm⟩ := perm_insert_of_perm_cons perm
    rw [List.flatMap_cons] at path
    obtain ⟨c, path, others⟩ := Slice.over_append_iff.1 path
    obtain ⟨b, ofName, ofRecord⟩ := Slice.over_append_iff.1 path
    obtain ⟨⟨nameWithin, recordWithin⟩, within⟩ := List.forall_mem_cons.1 within
    have named : readString "class name" a = .ok name b :=
      (reads_string _).eq_ok_iff.2 ⟨ofName, by simpa [Measure.Within, stringMeasure] using nameWithin⟩
    have read : Record.read b = .ok r c := Record.reads.eq_ok_iff.2 ⟨ofRecord, Record.withinLimits_iff.1 recordWithin⟩
    rw [List.length_cons, Nat.succ_add, readEntries_succ_of_new named read new]
    exact ih perm others within

/-- The entries passed are in the snapshot, and the rest is still to be read. -/
theorem Passed.readBody_eq (h : Passed start before left t) : readBody start = readEntries left (ofList before) t := by
  obtain ⟨u, first, others⟩ := Slice.over_append_iff.1 h.path
  have bound : Limits.snapshotEntries ≤ Limits.prefixValue := by decide
  have length := readLength_of_over Limits.snapshotEntries "snapshot entries" first (Nat.le_trans h.count bound)
  rw [if_neg (Nat.not_lt.2 h.count)] at length
  rw [readBody, bind_of_eq_ok length]
  exact readEntries_of_over (by simpa [empty] using ofList_perm h.distinct) others h.within

/-- One more entry is passed if its name is new. -/
theorem Passed.concat (h : Passed start before (left + 1) a) (named : readString "class name" a = .ok name b)
    (read : Record.read b = .ok r c) (new : name ∉ before.map (·.1)) : Passed start (before ++ [(name, r)]) left c := by
  obtain ⟨ofName, nameWithin⟩ := (reads_string _).sound named
  obtain ⟨ofRecord, recordWithin⟩ := Record.reads.sound read
  have count : (before ++ [(name, r)]).length + left = before.length + (left + 1) := by simp; omega
  refine ⟨?_, count ▸ h.count, ?_, ?_⟩
  · rw [count, List.flatMap_append, ← List.append_assoc, List.flatMap_singleton]
    exact h.path.append (ofName.append ofRecord)
  · refine List.forall_mem_append.2 ⟨h.within, List.forall_mem_singleton.2 ?_⟩
    exact ⟨nameWithin _ List.mem_cons_self, Record.withinLimits_iff.2 recordWithin⟩
  · rw [List.map_append]
    exact (List.perm_append_singleton _ _).nodup_iff.2 (List.nodup_cons.2 ⟨new, h.distinct⟩)

/-- What stops the reading of entries is a fault of the content. -/
theorem Passed.contentFault (h : Passed start before left a) (perm : s.entries.Perm before)
    (refused : readEntries left s a = .error e u) : ContentFault start e u := by
  induction left generalizing before s a with
  | zero => cases refused
  | succ left ih =>
    have names (name : String) : name ∈ s.names ↔ name ∈ before.map (·.1) := (perm.map Prod.fst).mem_iff
    rcases readEntries_succ_eq_error_iff.1 refused with refused | ⟨name, b, named, refused | ⟨r, c, read, others⟩⟩
    · exact .name h refused
    · exact .record h named refused
    · rcases others with ⟨repeated, rfl, rfl⟩ | ⟨new, others⟩
      · exact .duplicate h named read ((names name).1 repeated)
      · refine ih (h.concat named read (new ∘ (names name).2)) ?_ others
        exact (insert_perm new).trans ((perm.cons _).trans (List.perm_append_singleton _ _).symm)

/-! ### The content -/

theorem readBody_eq_ok_iff :
    readBody start = .ok s t ↔ ∃ entries, Passed start entries 0 t ∧ s.entries.Perm entries := by
  constructor
  · intro read
    obtain ⟨count, u, counted, entriesRead⟩ := bind_eq_ok_iff.1 read
    obtain ⟨few, -, ofCount⟩ := readLength_eq_ok counted
    obtain ⟨entries, rfl, path, within, perm⟩ := readEntries_eq_ok entriesRead
    have perm : s.entries.Perm entries := by simpa [empty] using perm
    exact ⟨entries, ⟨ofCount.append path, few, within, (perm.map Prod.fst).nodup s.nodup_names⟩, perm⟩
  · rintro ⟨entries, passed, perm⟩
    rw [passed.readBody_eq, eq_of_perm (perm.trans (ofList_perm passed.distinct).symm)]
    rfl

theorem decodeBody_eq_ok_iff {content : List UInt8} : decodeBody content = .ok s ↔
    ∃ entries t, Passed ⟨content, 5⟩ entries 0 t ∧ t.rest = [] ∧ s.entries.Perm entries := by
  constructor
  · intro decoded
    obtain ⟨entries, rfl, count, within, perm⟩ := decodeBody_eq_ok decoded
    have path : Slice.Over ⟨listForm entryForm entries, 5⟩ (listForm entryForm entries)
        ⟨[], 5 + (listForm entryForm entries).length⟩ := ⟨(List.append_nil _).symm, rfl⟩
    exact ⟨entries, _, ⟨path, count, within, (perm.map Prod.fst).nodup s.nodup_names⟩, rfl, perm⟩
  · rintro ⟨entries, t, passed, atEnd, perm⟩
    rw [decodeBody, readBody_eq_ok_iff.2 ⟨entries, passed, perm⟩]
    exact if_pos (by simp [Slice.isEmpty, atEnd])

/-- The first fault of the content is the one reported. -/
theorem decodeBody_eq_error_iff {content : List UInt8} :
    decodeBody content = .error e ↔ ∃ t, ContentFault ⟨content, 5⟩ e t := by
  unfold decodeBody
  constructor
  · intro refused
    split at refused
    · rename_i s t read
      split at refused
      · cases refused
      · rename_i behind
        obtain rfl := Except.error.inj refused
        obtain ⟨entries, passed, -⟩ := readBody_eq_ok_iff.1 read
        exact ⟨t, .trailing passed (by simpa [Slice.isEmpty] using behind)⟩
    · rename_i e' t stopped
      obtain rfl := Except.error.inj refused
      rcases bind_eq_error_iff.1 stopped with refused | ⟨count, u, counted, refused⟩
      · exact ⟨t, .count refused⟩
      · obtain ⟨few, -, ofCount⟩ := readLength_eq_ok counted
        have passed : Passed ⟨content, 5⟩ [] count u := by
          refine ⟨?_, by simpa using few, List.forall_mem_nil _, .nil⟩
          simpa using ofCount
        exact ⟨t, passed.contentFault (.refl _) refused⟩
  · -- A fault of an entry stops the reading behind the entries that are passed.
    have stops {before : List (String × Record)} {left : Nat} {t u : Slice} (passed : Passed ⟨content, 5⟩ before left t)
        (refused : readEntries left (ofList before) t = .error e u) : readBody ⟨content, 5⟩ = .error e u :=
      passed.readBody_eq.trans refused
    rintro ⟨t, fault⟩
    cases fault with
    | count refused => rw [readBody, bind_of_eq_error refused]
    | name passed refused => rw [stops passed (readEntries_succ_eq_error_iff.2 (.inl refused))]
    | record passed named refused =>
      rw [stops passed (readEntries_succ_eq_error_iff.2 (.inr ⟨_, _, named, .inl refused⟩))]
    | duplicate passed named read repeated =>
      have repeated := ((ofList_perm passed.distinct).map Prod.fst).mem_iff.2 repeated
      rw [stops passed (readEntries_succ_eq_error_iff.2
        (.inr ⟨_, _, named, .inr ⟨_, _, read, .inl ⟨repeated, rfl, rfl⟩⟩⟩))]
    | trailing passed behind =>
      rw [readBody_eq_ok_iff.2 ⟨_, passed, ofList_perm passed.distinct⟩]
      exact if_neg (by simp [Slice.isEmpty, behind])

/-! ### Header and digest -/

theorem decode_of_plain (plain : magic <+: bytes) (unmarked : ¬ compressedMagic <+: bytes)
    (small : bytes.length ≤ Limits.snapshotBytes) : decode p bytes = decodePlain p bytes := by
  have front : bytes.take 4 = magic := (List.prefix_iff_eq_take.1 plain).symm
  have other : bytes.take 5 ≠ compressedMagic := fun same => unmarked (List.prefix_iff_eq_take.2 same.symm)
  unfold decode
  rw [if_neg (Nat.not_lt.2 plain.length_le), if_neg other, if_pos front, if_neg (Nat.not_lt.2 small)]

/-- Behind the magic number comes the version. -/
theorem exists_of_version {version : UInt8} (plain : magic <+: bytes) (found : bytes[4]? = some version) :
    ∃ entries, bytes = magic ++ version :: entries := by
  obtain ⟨tail, rfl⟩ := plain
  cases tail with
  | nil => cases found
  | cons first entries =>
    obtain rfl := Option.some.inj found
    exact ⟨entries, rfl⟩

theorem decodePlain_of_short (plain : magic <+: bytes) (short : bytes.length = 4) :
    decodePlain p bytes = .error (.endOfInput "version") := by
  obtain rfl : magic = bytes := plain.eq_of_length short.symm
  rfl

theorem decodePlain_of_room (plain : magic <+: bytes) (found : bytes[4]? = some formatVersion)
    (short : bytes.length < 5 + digestBytes) : decodePlain p bytes = .error (.endOfInput "checksum") := by
  obtain ⟨entries, rfl⟩ := exists_of_version plain found
  have few : entries.length < digestBytes := by
    rw [List.length_append, List.length_cons, show magic.length = 4 from rfl] at short
    omega
  unfold decodePlain
  rw [if_neg (by simp), if_neg (by simp [take_magic]), drop_magic]
  exact (if_neg (by decide)).trans (if_pos few)

/-- Framed bytes are the header, the content and as many bytes as a digest has. -/
theorem Framed.exists_content (h : Framed bytes) (plain : magic <+: bytes) : ∃ content digest,
    bytes = headed content ++ digest ∧ digest.length = digestBytes ∧ covered bytes = headed content ∧
      contentOf bytes = ⟨content, 5⟩ := by
  obtain ⟨entries, parts⟩ := exists_of_version plain h.version
  have room := h.room
  have length : entries.length = bytes.length - 5 := by rw [parts]; simp [magic]
  have digest : (entries.drop (entries.length - digestBytes)).length = digestBytes := by
    rw [List.length_drop]
    omega
  have split : bytes = headed (entries.take (entries.length - digestBytes)) ++
      entries.drop (entries.length - digestBytes) := by
    rw [headed_append, List.take_append_drop, parts]
  have front := covered_append digest (headed (entries.take (entries.length - digestBytes)))
  rw [← split] at front
  exact ⟨_, _, split, digest, front, by rw [contentOf, front]; rfl⟩

instance (p : Primitives) (bytes : List UInt8) : Decidable (Intact p bytes) :=
  inferInstanceAs (Decidable (_ = _))

/-- The content is looked at only where the digest fits. -/
theorem Framed.decodePlain_eq (h : Framed bytes) (plain : magic <+: bytes) : decodePlain p bytes =
    if Intact p bytes then decodeBody (contentOf bytes).rest else .error .checksumMismatch := by
  obtain ⟨content, digest, parts, length, front, rest⟩ := h.exists_content plain
  have fits : Intact p bytes ↔ (p.digest (headed content)).toList = digest := by
    have tail : bytes.drop (bytes.length - digestBytes) = digest := by
      rw [parts, List.length_append, length, Nat.add_sub_cancel, List.drop_left]
    rw [Intact, tail, front, eq_comm]
  rw [rest]
  simp only [fits]
  rw [parts, decodePlain_headed length]
  simp only [ne_eq, ite_not]

theorem magic_prefix_sealed (p : Primitives) (content : List UInt8) : magic <+: sealed p content := by
  rw [sealed, headed_append]
  exact List.prefix_append _ _

theorem unmarked_sealed (p : Primitives) (content : List UInt8) : ¬ compressedMagic <+: sealed p content := by
  intro marked
  have same := (List.prefix_iff_eq_take.1 marked).trans (take_five_sealed p content)
  exact absurd same (by decide)

theorem framed_sealed (p : Primitives) (content : List UInt8) : Framed (sealed p content) :=
  ⟨rfl, by rw [length_sealed]; exact Nat.le_add_right _ _⟩

theorem contentOf_sealed (p : Primitives) (content : List UInt8) : contentOf (sealed p content) = ⟨content, 5⟩ := by
  rw [contentOf, sealed, covered_append (length_digest _)]
  rfl

theorem intact_sealed (p : Primitives) (content : List UInt8) : Intact p (sealed p content) := by
  rw [Intact, sealed, covered_append (length_digest _), List.length_append, length_digest, Nat.add_sub_cancel,
    List.drop_left]

/-- Bytes with the magic number are framed, or the header or the room for a digest is not as it must be. -/
theorem framed_or (plain : magic <+: bytes) : bytes.length = 4 ∨
    (∃ version, bytes[4]? = some version ∧ version ≠ formatVersion) ∨
    (bytes[4]? = some formatVersion ∧ bytes.length < 5 + digestBytes) ∨ Framed bytes := by
  obtain ⟨tail, rfl⟩ := plain
  cases tail with
  | nil => exact .inl rfl
  | cons version entries =>
    refine .inr ?_
    by_cases current : version = formatVersion
    · subst current
      exact .inr ((Nat.lt_or_ge _ _).imp (⟨rfl, ·⟩) (⟨rfl, ·⟩))
    · exact .inl ⟨version, rfl, current⟩

theorem decodePlain_eq_ok_iff (plain : magic <+: bytes) : decodePlain p bytes = .ok s ↔
    Framed bytes ∧ Intact p bytes ∧
      ∃ entries t, Passed (contentOf bytes) entries 0 t ∧ t.rest = [] ∧ s.entries.Perm entries := by
  constructor
  · intro decoded
    obtain ⟨content, rfl, -⟩ := decodePlain_eq_ok decoded
    rw [(framed_sealed p content).decodePlain_eq plain, if_pos (intact_sealed p content)] at decoded
    exact ⟨framed_sealed p content, intact_sealed p content, decodeBody_eq_ok_iff.1 decoded⟩
  · rintro ⟨framed, intact, h⟩
    rw [framed.decodePlain_eq plain, if_pos intact]
    exact decodeBody_eq_ok_iff.2 h

/-- The first fault is the one reported. -/
theorem decodePlain_eq_error_iff (plain : magic <+: bytes) : decodePlain p bytes = .error e ↔ FirstFault p bytes e := by
  have foreign {version : UInt8} (found : bytes[4]? = some version) (other : version ≠ formatVersion) :
      decodePlain p bytes = .error (.unsupportedVersion version) := by
    obtain ⟨entries, rfl⟩ := exists_of_version plain found
    exact decodePlain_of_version other
  constructor
  · intro refused
    rcases framed_or plain with short | ⟨version, found, other⟩ | ⟨found, short⟩ | framed
    · obtain rfl := Except.error.inj ((decodePlain_of_short plain short).symm.trans refused)
      exact .unversioned short
    · obtain rfl := Except.error.inj ((foreign found other).symm.trans refused)
      exact .version found other
    · obtain rfl := Except.error.inj ((decodePlain_of_room plain found short).symm.trans refused)
      exact .room found short
    · rw [framed.decodePlain_eq plain] at refused
      split at refused
      · rename_i intact
        obtain ⟨t, fault⟩ := decodeBody_eq_error_iff.1 refused
        exact .content framed intact fault
      · rename_i damaged
        obtain rfl := Except.error.inj refused
        exact .digest framed damaged
  · intro fault
    cases fault with
    | unversioned short => exact decodePlain_of_short plain short
    | version found other => exact foreign found other
    | room found short => exact decodePlain_of_room plain found short
    | digest framed damaged => rw [framed.decodePlain_eq plain, if_neg damaged]
    | content framed intact fault =>
      rw [framed.decodePlain_eq plain, if_pos intact]
      exact decodeBody_eq_error_iff.2 ⟨_, fault⟩

/-! ### Places -/

/-- Reading begins behind the header. -/
theorem Framed.contentOf_isIn (h : Framed bytes) : (contentOf bytes).IsIn (covered bytes) where
  position_le := by
    have room := h.room
    show 5 ≤ _
    rw [covered, List.length_take]
    omega
  rest_eq := rfl

theorem ContentFault.isIn {content : List UInt8} (h : ContentFault start e t) (inside : start.IsIn content) :
    t.IsIn content := by
  cases h with
  | count refused =>
    exact (spends_length _ _).isIn_of_eq_error refused inside
  | name passed refused =>
    exact (spends_string _).isIn_of_eq_error refused (passed.path.isIn inside)
  | record passed named refused =>
    have ofName := (spends_string _).isIn_of_eq_ok named (passed.path.isIn inside)
    exact spends_record.isIn_of_eq_error refused ofName
  | duplicate passed named read repeated =>
    have ofName := (spends_string _).isIn_of_eq_ok named (passed.path.isIn inside)
    exact spends_record.isIn_of_eq_ok read ofName
  | trailing passed behind => exact passed.path.isIn inside

/-! ### Outcomes -/

/-- Only the bytes behind all entries are reported as such. -/
theorem contentFault_trailingBytes_iff {n : Nat} : (∃ t, ContentFault start (.trailingBytes n) t) ↔
    ∃ entries t, Passed start entries 0 t ∧ t.rest.length = n ∧ n ≠ 0 := by
  constructor
  · rintro ⟨t, fault⟩
    cases fault with
    | count refused => cases isOfField_of_readLength refused
    | name passed refused => cases isOfField_of_readString refused
    | record passed named refused => cases isOfField_of_readRecord refused
    | trailing passed behind => exact ⟨_, t, passed, rfl, by simpa using behind⟩
  · rintro ⟨entries, t, passed, rfl, behind⟩
    exact ⟨t, .trailing passed (by simpa using behind)⟩

/-- Only a name that an entry before has is reported as such, and only after its record. -/
theorem contentFault_duplicateEntry_iff : (∃ t, ContentFault start (.duplicateEntry name) t) ↔
    ∃ before left r t u v, Passed start before (left + 1) t ∧ readString "class name" t = .ok name u ∧
      Record.read u = .ok r v ∧ name ∈ before.map (·.1) := by
  constructor
  · rintro ⟨t, fault⟩
    cases fault with
    | count refused => cases isOfField_of_readLength refused
    | name passed refused => cases isOfField_of_readString refused
    | record passed named refused => cases isOfField_of_readRecord refused
    | duplicate passed named read repeated => exact ⟨_, _, _, _, _, _, passed, named, read, repeated⟩
  · rintro ⟨before, left, r, t, u, v, passed, named, read, repeated⟩
    exact ⟨v, .duplicate passed named read repeated⟩

/-- An error that neither the header nor the digest is refused with comes from the content. -/
theorem firstFault_iff_of_content (ending : ∀ context, e ≠ .endOfInput context)
    (supported : ∀ version, e ≠ .unsupportedVersion version) (fits : e ≠ .checksumMismatch) :
    FirstFault p bytes e ↔ Framed bytes ∧ Intact p bytes ∧ ∃ t, ContentFault (contentOf bytes) e t := by
  constructor
  · intro fault
    cases fault with
    | unversioned => exact absurd rfl (ending _)
    | version => exact absurd rfl (supported _)
    | room => exact absurd rfl (ending _)
    | digest => exact absurd rfl fits
    | content framed intact fault => exact ⟨framed, intact, _, fault⟩
  · rintro ⟨framed, intact, t, fault⟩
    exact .content framed intact fault

/-- Plain bytes are refused exactly for the fault that comes first in the order of reading, and they are a snapshot
exactly if the digest fits and all entries are passed up to the end.  Where the digest does not fit, nothing is reported
but the header, the room or the digest; a repeated name is reported exactly behind its record, and bytes that are left
exactly behind all entries, with their number.  Every place where reading stops lies in what the digest covers, and
with another digest at the end that fits, the outcome is the same. -/
theorem decode_plain_first_fault (p : Primitives) (bytes : List UInt8) (plain : magic <+: bytes)
    (unmarked : ¬ compressedMagic <+: bytes) (small : bytes.length ≤ Limits.snapshotBytes) :
    (∀ e, decode p bytes = .error e ↔ FirstFault p bytes e) ∧
    (∀ s, decode p bytes = .ok s ↔ Framed bytes ∧ Intact p bytes ∧
      ∃ entries t, Passed (contentOf bytes) entries 0 t ∧ t.rest = [] ∧ s.entries.Perm entries) ∧
    (¬ Intact p bytes → decode p bytes = .error (.endOfInput "version") ∨
      (∃ version, decode p bytes = .error (.unsupportedVersion version)) ∨
      decode p bytes = .error (.endOfInput "checksum") ∨ decode p bytes = .error .checksumMismatch) ∧
    (∀ name, decode p bytes = .error (.duplicateEntry name) ↔ Framed bytes ∧ Intact p bytes ∧
      ∃ before left r t u v, Passed (contentOf bytes) before (left + 1) t ∧
        readString "class name" t = .ok name u ∧ Record.read u = .ok r v ∧ name ∈ before.map (·.1)) ∧
    (∀ n, decode p bytes = .error (.trailingBytes n) ↔ Framed bytes ∧ Intact p bytes ∧
      ∃ entries t, Passed (contentOf bytes) entries 0 t ∧ t.rest.length = n ∧ n ≠ 0) ∧
    (Framed bytes → (∀ before left t, Passed (contentOf bytes) before left t → t.IsIn (covered bytes)) ∧
      ∀ e t, ContentFault (contentOf bytes) e t → t.IsIn (covered bytes)) ∧
    (Framed bytes → Intact p bytes →
      ∀ q : Primitives, decode q (covered bytes ++ (q.digest (covered bytes)).toList) = decode p bytes) := by
  have refused (e : DecodeError) : decode p bytes = .error e ↔ FirstFault p bytes e := by
    rw [decode_of_plain plain unmarked small]
    exact decodePlain_eq_error_iff plain
  have read (s : Snapshot) : decode p bytes = .ok s ↔ Framed bytes ∧ Intact p bytes ∧
      ∃ entries t, Passed (contentOf bytes) entries 0 t ∧ t.rest = [] ∧ s.entries.Perm entries := by
    rw [decode_of_plain plain unmarked small]
    exact decodePlain_eq_ok_iff plain
  refine ⟨refused, read, ?_, ?_, ?_, ?_, ?_⟩
  · intro damaged
    cases outcome : decode p bytes with
    | ok s => exact absurd ((read s).1 outcome).2.1 damaged
    | error e =>
      cases (refused e).1 outcome with
      | unversioned => exact .inl rfl
      | version => exact .inr (.inl ⟨_, rfl⟩)
      | room => exact .inr (.inr (.inl rfl))
      | digest => exact .inr (.inr (.inr rfl))
      | content _ intact => exact absurd intact damaged
  · intro name
    rw [refused, firstFault_iff_of_content (by simp) (by simp) (by simp), contentFault_duplicateEntry_iff]
  · intro n
    rw [refused, firstFault_iff_of_content (by simp) (by simp) (by simp), contentFault_trailingBytes_iff]
  · intro framed
    exact ⟨fun _ _ _ passed => passed.path.isIn framed.contentOf_isIn, fun _ _ fault => fault.isIn framed.contentOf_isIn⟩
  · intro framed intact q
    obtain ⟨content, digest, parts, length, front, rest⟩ := framed.exists_content plain
    have size : (sealed q content).length ≤ Limits.snapshotBytes := by
      rw [parts, List.length_append, length, length_headed, digestBytes] at small
      rw [length_sealed]
      omega
    rw [decode_of_plain plain unmarked small, framed.decodePlain_eq plain, if_pos intact, rest, front]
    exact decode_sealed size

/-- An entry is repeated and a byte is left behind the two; only the first of these faults is reported. -/
theorem decode_plain_first_fault_repeated :
    let entry := entryForm ("A", {})
    decode .standard (sealed .standard (lengthForm 2 ++ entry ++ entry ++ [7])) = .error (.duplicateEntry "A") := by
  intro entry
  obtain ⟨-, -, -, duplicates, -⟩ := decode_plain_first_fault .standard
    (sealed .standard (lengthForm 2 ++ entry ++ entry ++ [7])) (magic_prefix_sealed _ _) (unmarked_sealed _ _)
    (by rw [length_sealed]; decide +kernel)
  refine (duplicates "A").2 ⟨framed_sealed _ _, intact_sealed _ _, ?_⟩
  rw [contentOf_sealed]
  -- The places are behind the first entry, behind the second name and behind the second record.
  let t : Slice := ⟨entry ++ [7], 9 + entry.length⟩
  let u : Slice := ⟨Record.form {} ++ [7], t.position + 5⟩
  let v : Slice := ⟨[7], t.position + entry.length⟩
  have passed : Passed ⟨lengthForm 2 ++ entry ++ entry ++ [7], 5⟩ [("A", {})] 1 t := by
    refine ⟨⟨by decide +kernel, by decide +kernel⟩, by decide, ?_, by decide⟩
    rw [forall_entryWithinLimits_iff]
    decide +kernel
  have named : readString "class name" t = .ok "A" u :=
    (reads_string _).eq_ok_iff.2 ⟨⟨by decide +kernel, by decide +kernel⟩, by decide +kernel⟩
  have read : Record.read u = .ok {} v :=
    Record.reads.eq_ok_iff.2 ⟨⟨by decide +kernel, by decide +kernel⟩, by decide +kernel⟩
  exact ⟨_, 0, _, t, u, v, passed, named, read, List.mem_singleton_self "A"⟩

end ClassLedger.Snapshot
