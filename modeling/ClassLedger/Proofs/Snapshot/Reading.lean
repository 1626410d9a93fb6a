import ClassLedger.Proofs.Snapshot.Framing

/-!
# Reading a snapshot

Reading takes the entries one by one, each with a name that none before it had, so what is read is the snapshot of
the entries in any order.  The plain form is taken apart at its header and its digest.
-/

namespace ClassLedger.Snapshot

open Wire

variable {s s₀ : Snapshot} {entries : List (String × Record)}

/-! ### Entries -/

/-- Entries that are read have new names, so they are added to those of the snapshot before. -/
theorem readEntries_eq_ok {count : Nat} {a t : Slice} (h : readEntries count s₀ a = .ok s t) :
    ∃ entries : List (String × Record), entries.length = count ∧ a.Over (entries.flatMap entryForm) t ∧
      (∀ e ∈ entries, EntryWithinLimits e) ∧ s.entries.Perm (entries ++ s₀.entries) := by
  induction count generalizing s₀ a with
  | zero =>
    obtain ⟨rfl, rfl⟩ := EStateM.Result.ok.inj h
    exact ⟨[], rfl, Slice.over_nil_iff.2 rfl, nofun, .refl _⟩
  | succ count ih =>
    obtain ⟨name, b, nameRead, h⟩ := bind_eq_ok_iff.1 h
    obtain ⟨r, c, recordRead, h⟩ := bind_eq_ok_iff.1 h
    split at h
    · cases h
    · rename_i new
      obtain ⟨rest, length, path, within, perm⟩ := ih h
      obtain ⟨nameOver, nameWithin⟩ := (reads_string _).sound nameRead
      obtain ⟨recordOver, recordWithin⟩ := Record.reads.sound recordRead
      refine ⟨(name, r) :: rest, by rw [List.length_cons, length], (nameOver.append recordOver).append path, ?_, ?_⟩
      · exact List.forall_mem_cons.2
          ⟨⟨nameWithin _ List.mem_cons_self, Record.withinLimits_iff.2 recordWithin⟩, within⟩
      · rw [contains_iff] at new
        exact (perm.trans ((insert_perm new).append_left rest)).trans List.perm_middle

/-- Entries with new names that stand ahead are read up to the first length beyond its limit. -/
theorem readEntries_outcome {a t : Slice} (perm : s.entries.Perm (entries ++ s₀.entries))
    (path : a.Over (entries.flatMap entryForm) t) (fits : ∀ m ∈ entries.flatMap entryMeasures, m.Fits) :
    Outcome (readEntries entries.length s₀ a) (entries.flatMap entryMeasures) s t := by
  induction entries generalizing s₀ a with
  | nil =>
    obtain rfl := Slice.over_nil_iff.1 path
    obtain rfl := eq_of_perm perm
    exact .of_eq_ok rfl
  | cons e rest ih =>
    obtain ⟨new, perm⟩ := perm_insert_of_perm_cons perm
    rw [List.flatMap_cons] at path fits
    obtain ⟨c, path₁, path₃⟩ := Slice.over_append_iff.1 path
    obtain ⟨b, path₁, path₂⟩ := Slice.over_append_iff.1 path₁
    obtain ⟨fits₁, fits₃⟩ := List.forall_mem_append.1 fits
    obtain ⟨fits₁, fits₂⟩ := List.forall_mem_cons.1 fits₁
    have others : Outcome (readEntries rest.length (s₀.insert e.1 e.2) c) (rest.flatMap entryMeasures) s t :=
      ih perm path₃ fits₃
    have all : Outcome ((readString "class name" >>= fun name => Record.read >>= fun r =>
          if s₀.contains name then throw (.duplicateEntry name) else readEntries rest.length (s₀.insert name r)) a)
        ([stringMeasure "class name" e.1] ++ (e.2.measures ++ rest.flatMap entryMeasures)) s t := by
      refine ((reads_string _).outcome path₁ (by simpa using fits₁)).bind ((Record.reads.outcome path₂ fits₂).bind ?_)
      rwa [if_neg (by rwa [contains_iff])]
    exact all

/-! ### The part between header and digest -/

/-- What is read if a limit does not forbid it. -/
def verdict (s : Snapshot) (measures : List Measure) : Except DecodeError Snapshot :=
  match firstBeyond measures with
  | none => .ok s
  | some m => .error m.refusal

theorem verdict_of_within {measures : List Measure} (h : ∀ m ∈ measures, m.Within) : verdict s measures = .ok s := by
  unfold verdict
  rw [firstBeyond_eq_none_iff.2 h]

theorem verdict_of_firstBeyond {measures : List Measure} {m : Measure} (h : firstBeyond measures = some m) :
    verdict s measures = .error m.refusal := by
  unfold verdict
  rw [h]

theorem decodeBody_eq_ok {content : List UInt8} (h : decodeBody content = .ok s) :
    ∃ entries, content = listForm entryForm entries ∧ entries.length ≤ Limits.snapshotEntries ∧
      (∀ e ∈ entries, EntryWithinLimits e) ∧ s.entries.Perm entries := by
  unfold decodeBody at h
  split at h
  · rename_i s' t ok
    obtain ⟨count, u, countRead, entriesRead⟩ := bind_eq_ok_iff.1 ok
    obtain ⟨within, -, before⟩ := readLength_eq_ok countRead
    obtain ⟨entries, rfl, behind, entriesWithin, perm⟩ := readEntries_eq_ok entriesRead
    split at h
    · rename_i atEnd
      obtain rfl := Except.ok.inj h
      have none : t.rest = [] := by simpa [Slice.isEmpty] using atEnd
      have whole : content = _ := (before.append behind).1
      rw [none, List.append_nil] at whole
      exact ⟨entries, whole, within, entriesWithin, by simpa [empty] using perm⟩
    · cases h
  · cases h

private theorem decodeBody_of_outcome {content : List UInt8} {measures : List Measure} {position : Nat}
    (h : Outcome ((readBody : Read Slice Snapshot) ⟨content, 5⟩) measures s ⟨[], position⟩) :
    decodeBody content = verdict s measures := by
  unfold decodeBody
  cases first : firstBeyond measures with
  | none =>
    rw [h.eq_ok (firstBeyond_eq_none_iff.1 first), verdict_of_within (firstBeyond_eq_none_iff.1 first)]
    rfl
  | some m =>
    obtain ⟨u, refused⟩ := h.eq_error first
    rw [refused, verdict_of_firstBeyond first]

theorem decodeBody_listForm (count : entries.length ≤ Limits.snapshotEntries)
    (fits : ∀ m ∈ entries.flatMap entryMeasures, m.Fits) (perm : s.entries.Perm entries) :
    decodeBody (listForm entryForm entries) = verdict s (entries.flatMap entryMeasures) := by
  generalize ahead : listForm entryForm entries = content
  have path : Slice.Over ⟨content, 5⟩ (listForm entryForm entries) ⟨[], 5 + (listForm entryForm entries).length⟩ :=
    ⟨by rw [ahead, List.append_nil], rfl⟩
  obtain ⟨u, before, behind⟩ := Slice.over_append_iff.1 path
  have bound : Limits.snapshotEntries ≤ Limits.prefixValue := by decide
  have length := readLength_of_over Limits.snapshotEntries "snapshot entries" before (Nat.le_trans count bound)
  rw [if_neg (Nat.not_lt.2 count)] at length
  apply decodeBody_of_outcome
  unfold readBody
  rw [bind_of_eq_ok length]
  exact readEntries_outcome (by simpa [empty] using perm) behind fits

/-! ### Header and digest -/

theorem decodePlain_eq_ok {p : Primitives} {bytes : List UInt8} (h : decodePlain p bytes = .ok s) :
    ∃ content, bytes = sealed p content ∧ decodeBody content = .ok s := by
  unfold decodePlain at h
  split at h
  · cases h
  split at h
  · cases h
  rename_i front
  split at h
  · cases h
  rename_i version entries behind
  split at h
  · cases h
  rename_i supported
  split at h
  · cases h
  rename_i room
  simp only at h
  split at h
  · cases h
  rename_i same
  have format : version = formatVersion := by
    simp only [oldestFormatVersion, formatVersion, not_or, UInt8.not_lt] at supported ⊢
    exact UInt8.le_antisymm supported.2 supported.1
  have split : bytes = headed (entries.take (entries.length - digestBytes)) ++
      entries.drop (entries.length - digestBytes) := by
    rw [← List.take_append_drop 4 bytes, behind, Decidable.not_not.1 front, format]
    simp [headed]
  -- What the digest covers is just the part of `split` before the last 32 bytes.
  have covered : bytes.length - digestBytes = (headed (entries.take (entries.length - digestBytes))).length := by
    have total := congrArg List.length split
    simp only [List.length_append, List.length_drop] at total
    omega
  rw [covered, split, List.take_left' rfl, List.drop_left' rfl] at same
  refine ⟨_, ?_, h⟩
  rw [sealed, Decidable.not_not.1 same, ← split]

/-! ### Framing -/

theorem take_five_sealed (p : Primitives) (content : List UInt8) :
    (sealed p content).take 5 = magic ++ [formatVersion] := by
  rw [sealed, headed_append]
  rfl

/-- The plain form of the entries of a snapshot, in any order, is read up to the first length beyond its limit. -/
theorem decode_plainForm {p : Primitives} (count : entries.length ≤ Limits.snapshotEntries)
    (small : (plainForm p entries).length ≤ Limits.snapshotBytes) (perm : s.entries.Perm entries) :
    decode p (plainForm p entries) = verdict s (entries.flatMap entryMeasures) := by
  have fits : ∀ m ∈ entries.flatMap entryMeasures, m.Fits := by
    intro m hm
    obtain ⟨e, he, hm⟩ := List.mem_flatMap.1 hm
    exact (fits_of_length_plainForm small).2 e he m hm
  rw [plainForm, decode_sealed small, decodeBody_listForm count fits perm]

/-- Without the compressed magic number in front, only the plain form is taken. -/
theorem decode_eq_ok_of_plain {p : Primitives} {bytes : List UInt8} (plain : bytes.take 5 ≠ compressedMagic)
    (h : decode p bytes = .ok s) : bytes.length ≤ Limits.snapshotBytes ∧ decodePlain p bytes = .ok s := by
  unfold decode at h
  split at h
  · cases h
  split at h
  · split at h
    · cases h
    · rename_i small
      exact ⟨Nat.not_lt.1 small, h⟩
  · cases h

end ClassLedger.Snapshot
