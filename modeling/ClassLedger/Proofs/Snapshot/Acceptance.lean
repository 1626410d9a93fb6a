import ClassLedger.Proofs.Snapshot.Reading

/-!
# Which plain snapshots are accepted

Decoding without compression accepts exactly the plain forms of lists of entries with distinct names within all
limits, in any order, and gives the snapshot of these entries.  Order is all that is lost: the snapshot encodes to the
same bytes exactly if the entries were in ascending order.
-/

namespace ClassLedger.Snapshot

open Wire

/-- The bytes are the plain form of entries with distinct names, all within the limits. -/
structure Holds (p : Primitives) (bytes : List UInt8) (entries : List (String × Record)) : Prop where
  form : bytes = plainForm p entries
  size : bytes.length ≤ Limits.snapshotBytes
  count : entries.length ≤ Limits.snapshotEntries
  distinct : (entries.map (·.1)).Nodup
  within : ∀ e ∈ entries, EntryWithinLimits e

section

variable {p : Primitives} {bytes other : List UInt8} {entries entries' : List (String × Record)} {s t : Snapshot}

theorem Holds.decode_eq_ok_iff (h : Holds p bytes entries) : decode p bytes = .ok s ↔ s.entries.Perm entries := by
  have small : (plainForm p entries).length ≤ Limits.snapshotBytes := h.form ▸ h.size
  have read {t : Snapshot} (perm : t.entries.Perm entries) : decode p bytes = .ok t := by
    rw [h.form, decode_plainForm h.count small perm]
    exact verdict_of_within (forall_entryWithinLimits_iff.1 h.within)
  constructor
  · intro decoded
    have ofList := read (ofList_perm h.distinct)
    rw [decoded] at ofList
    rw [Except.ok.inj ofList]
    exact ofList_perm h.distinct
  · exact read

theorem exists_holds_of_decode (plain : bytes.take 5 ≠ compressedMagic) (h : decode p bytes = .ok s) :
    ∃ entries, Holds p bytes entries ∧ s.entries.Perm entries := by
  obtain ⟨size, decoded⟩ := decode_eq_ok_of_plain plain h
  obtain ⟨content, rfl, body⟩ := decodePlain_eq_ok decoded
  obtain ⟨entries, rfl, count, within, perm⟩ := decodeBody_eq_ok body
  exact ⟨entries, ⟨rfl, size, count, (perm.map Prod.fst).nodup s.nodup_names, within⟩, perm⟩

/-- The snapshot that was read encodes to the same bytes exactly if its entries were in order. -/
theorem Holds.encode_eq_ok_iff (h : Holds p bytes entries) (perm : s.entries.Perm entries) :
    s.encode p {} = .ok bytes ↔ entries.Pairwise (·.1 < ·.1) := by
  rw [encode_plain, encodePlain_eq_ok_iff, h.form]
  constructor
  · rintro ⟨-, -, same⟩
    rw [plainForm_injective (h.form ▸ h.size) same]
    exact s.ascending
  · intro ascending
    have same : s.entries = entries := by
      refine perm.eq_of_pairwise ?_ s.ascending ascending
      intro e f _ _ lt gt
      exact absurd gt (String.lt_asymm lt)
    refine ⟨?_, ?_, by rw [same]⟩
    · rw [Snapshot.size, same]
      exact h.count
    · rw [same, ← h.form]
      exact h.size

theorem Holds.unique (h : Holds p bytes entries) (h' : Holds p bytes entries') : entries = entries' :=
  plainForm_injective (h.form ▸ h.size) (h.form ▸ h'.form)

theorem Holds.eq_iff_perm (h : Holds p bytes entries) (h' : Holds p other entries') (decoded : decode p bytes = .ok s)
    (decoded' : decode p other = .ok t) : s = t ↔ entries.Perm entries' := by
  rw [h.decode_eq_ok_iff] at decoded
  rw [h'.decode_eq_ok_iff] at decoded'
  constructor
  · rintro rfl
    exact decoded.symm.trans decoded'
  · intro perm
    exact eq_of_perm ((decoded.trans perm).trans decoded'.symm)

end

/-- Bytes that are not marked as compressed decode to a snapshot exactly if they are the plain form of its entries in
some order, and of no others, within all limits.  They are what the snapshot encodes to exactly if that order is
ascending, and other bytes give the same snapshot exactly if they hold the same entries up to order. -/
theorem decode_plain_characterized (p : Primitives) (bytes : List UInt8) (plain : bytes.take 5 ≠ compressedMagic) :
    (∀ s, decode p bytes = .ok s ↔ ∃ entries, Holds p bytes entries ∧ s.entries.Perm entries) ∧
    (∀ entries entries', Holds p bytes entries → Holds p bytes entries' → entries = entries') ∧
    (∀ s entries, decode p bytes = .ok s → Holds p bytes entries →
      (s.encode p {} = .ok bytes ↔ entries.Pairwise (·.1 < ·.1))) ∧
    (∀ other s t entries entries', decode p bytes = .ok s → decode p other = .ok t →
      Holds p bytes entries → Holds p other entries' → (s = t ↔ entries.Perm entries')) := by
  refine ⟨?_, ?_, ?_, ?_⟩
  · intro s
    constructor
    · exact exists_holds_of_decode plain
    · rintro ⟨entries, holds, perm⟩
      exact holds.decode_eq_ok_iff.2 perm
  · intro entries entries' h h'
    exact h.unique h'
  · intro s entries decoded h
    exact h.encode_eq_ok_iff (h.decode_eq_ok_iff.1 decoded)
  · intro other s t entries entries' decoded decoded' h h'
    exact h.eq_iff_perm h' decoded decoded'

/-- Two entries in descending order are read, and written in another order. -/
theorem decode_plain_characterized_descending :
    let p : Primitives :=
      { digest := fun _ => .replicate 32 0, deflate := fun _ _ => .error "", inflate := fun _ _ _ => .error "" }
    let entries : List (String × Record) := [("B", {}), ("A", {})]
    ∃ s : Snapshot, s.names = ["A", "B"] ∧ decode p (plainForm p entries) = .ok s ∧
      s.encode p {} ≠ .ok (plainForm p entries) := by
  intro p entries
  have plain : (plainForm p entries).take 5 ≠ compressedMagic := by
    rw [plainForm, take_five_sealed]
    decide
  have holds : Holds p (plainForm p entries) entries := by
    refine ⟨rfl, by decide +kernel, by decide, by decide, ?_⟩
    rw [forall_entryWithinLimits_iff]
    decide +kernel
  obtain ⟨decoded, -, encoded, -⟩ := decode_plain_characterized p _ plain
  have read := (decoded (ofList entries)).2 ⟨entries, holds, ofList_perm (by decide)⟩
  refine ⟨ofList entries, by decide, read, ?_⟩
  rw [ne_eq, encoded _ entries read holds]
  decide

end ClassLedger.Snapshot
