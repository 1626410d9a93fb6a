import ClassLedger.Snapshot.Basic

/-!
# The entries of a snapshot

A snapshot is determined by its entries in any order: their names are distinct, and putting in an entry with a new
name only adds it.
-/

namespace ClassLedger.Snapshot

variable {s t : Snapshot} {name : String} {r : Record}

theorem nodup_names (s : Snapshot) : s.names.Nodup := by
  unfold names List.Nodup
  rw [List.pairwise_map]
  refine s.ascending.imp ?_
  rintro e f lt same
  exact String.lt_irrefl _ (same ▸ lt)

theorem contains_iff : s.contains name = true ↔ name ∈ s.names := by
  simp [contains, get?, names]

theorem eq_of_entries_eq (h : s.entries = t.entries) : s = t := by
  cases s
  cases t
  cases h
  rfl

/-- Snapshots with the same entries up to order are equal. -/
theorem eq_of_perm (h : s.entries.Perm t.entries) : s = t := by
  apply eq_of_entries_eq
  refine h.eq_of_pairwise ?_ s.ascending t.ascending
  intro e f _ _ lt gt
  exact absurd gt (String.lt_asymm lt)

theorem insertEntry_perm {entries : List (String × Record)} (h : name ∉ entries.map (·.1)) :
    (insertEntry name r entries).Perm ((name, r) :: entries) := by
  induction entries with
  | nil => exact .refl _
  | cons e rest ih =>
    simp only [List.map_cons, List.mem_cons, not_or] at h
    unfold insertEntry
    split
    · exact .refl _
    · rw [if_neg h.1]
      exact ((ih h.2).cons e).trans (.swap _ _ _)

/-- An entry with a new name is added to the others. -/
theorem insert_perm (h : name ∉ s.names) : (s.insert name r).entries.Perm ((name, r) :: s.entries) :=
  insertEntry_perm h

/-- An entry that comes to those of `t` on the way to `s` is new to `t` and can be put in first. -/
theorem perm_insert_of_perm_cons {e : String × Record} {rest : List (String × Record)}
    (perm : s.entries.Perm (e :: rest ++ t.entries)) :
    e.1 ∉ t.names ∧ s.entries.Perm (rest ++ (t.insert e.1 e.2).entries) := by
  have distinct := (perm.map Prod.fst).nodup s.nodup_names
  simp only [List.cons_append, List.map_cons, List.map_append, List.nodup_cons, List.mem_append, not_or] at distinct
  have new : e.1 ∉ t.names := distinct.1.2
  exact ⟨new, perm.trans (List.perm_middle.symm.trans ((insert_perm new).symm.append_left rest))⟩

/-- The snapshot of entries with distinct names has just these entries. -/
theorem ofList_perm {entries : List (String × Record)} (h : (entries.map (·.1)).Nodup) :
    (ofList entries).entries.Perm entries := by
  -- The induction needs any snapshot to start from, with names that none of the entries has.
  have onto {rest : List (String × Record)} {s : Snapshot} (distinct : (rest.map (·.1) ++ s.names).Nodup) :
      (rest.foldl (fun s e => s.insert e.1 e.2) s).entries.Perm (rest ++ s.entries) := by
    induction rest generalizing s with
    | nil => exact .refl _
    | cons e rest ih =>
      simp only [List.map_cons, List.cons_append, List.nodup_cons, List.mem_append, not_or] at distinct
      obtain ⟨⟨others, new⟩, distinct⟩ := distinct
      have added := insert_perm (r := e.2) new
      have names : (s.insert e.1 e.2).names.Perm (e.1 :: s.names) := added.map Prod.fst
      have distinct' : (rest.map (·.1) ++ (s.insert e.1 e.2).names).Nodup := by
        refine ((names.append_left _).trans List.perm_middle).nodup_iff.2 ?_
        exact List.nodup_cons.2 ⟨by rw [List.mem_append, not_or]; exact ⟨others, new⟩, distinct⟩
      exact (ih distinct').trans ((added.append_left rest).trans List.perm_middle)
  have := onto (s := empty) (by simpa [names, empty] using h)
  rwa [show empty.entries = [] from rfl, List.append_nil] at this

end ClassLedger.Snapshot
