import ClassLedger.Proofs.Snapshot.Entries

/-!
# Looking up records

A snapshot is determined by the records that are found under each name.  Inserting and erasing change what is found
under one name and leave the others alone.
-/

namespace ClassLedger.Snapshot

/-- The record of the first entry with the given name. -/
def recordOf (entries : List (String × Record)) (name : String) : Option Record :=
  (entries.find? (·.1 = name)).map (·.2)

section

variable {entries : List (String × Record)} {e : String × Record} {name : String} {r : Record}

@[simp]
theorem recordOf_nil (name : String) : recordOf [] name = none := rfl

theorem recordOf_cons (e : String × Record) (rest : List (String × Record)) (name : String) :
    recordOf (e :: rest) name = if e.1 = name then some e.2 else recordOf rest name := by
  unfold recordOf
  rw [List.find?_cons]
  by_cases same : e.1 = name <;> simp [same]

theorem recordOf_eq_none_iff : recordOf entries name = none ↔ name ∉ entries.map (·.1) := by
  induction entries with
  | nil => simp
  | cons e rest ih =>
    rw [recordOf_cons, List.map_cons, List.mem_cons, not_or, ← ih]
    split <;> simp_all [eq_comm]

/-- Where names are distinct, every entry is found under its name. -/
theorem recordOf_eq_some_iff (distinct : (entries.map (·.1)).Nodup) :
    recordOf entries name = some r ↔ (name, r) ∈ entries := by
  induction entries with
  | nil => simp
  | cons e rest ih =>
    obtain ⟨new, distinct⟩ := List.nodup_cons.1 distinct
    rw [recordOf_cons, List.mem_cons]
    by_cases first : e.1 = name
    · subst first
      have others : (e.1, r) ∉ rest := fun h => new (List.mem_map.2 ⟨_, h, rfl⟩)
      simp [others, Prod.ext_iff, eq_comm]
    · rw [if_neg first, ih distinct]
      exact (or_iff_right fun same => first (congrArg Prod.fst same).symm).symm

/-- No name is found before the first one of ascending entries. -/
theorem recordOf_of_forall_lt (h : ∀ e ∈ entries, name < e.1) : recordOf entries name = none := by
  rw [recordOf_eq_none_iff, List.mem_map]
  rintro ⟨e, he, rfl⟩
  exact String.lt_irrefl _ (h e he)

theorem recordOf_insertEntry (ascending : entries.Pairwise (·.1 < ·.1)) (name other : String) (r : Record) :
    recordOf (insertEntry name r entries) other = if name = other then some r else recordOf entries other := by
  induction entries with
  | nil => exact recordOf_cons _ _ _
  | cons e rest ih =>
    unfold insertEntry
    split
    · exact recordOf_cons _ _ _
    · split
      · rename_i same
        rw [recordOf_cons, recordOf_cons, ← same]
        split <;> rfl
      · rename_i different
        rw [recordOf_cons, recordOf_cons, ih ascending.of_cons]
        by_cases first : e.1 = other
        · rw [if_pos first, if_pos first, if_neg fun same => different (same.trans first.symm)]
        · rw [if_neg first, if_neg first]

theorem recordOf_filter (entries : List (String × Record)) (name other : String) :
    recordOf (entries.filter (·.1 ≠ name)) other = if name = other then none else recordOf entries other := by
  induction entries with
  | nil => split <;> rfl
  | cons e rest ih =>
    rw [List.filter_cons, recordOf_cons]
    by_cases erased : e.1 = name
    · rw [if_neg (by simpa using erased), ih, erased]
      split <;> rfl
    · rw [if_pos (by simpa using erased), recordOf_cons, ih]
      by_cases first : e.1 = other
      · rw [if_pos first, if_pos first, if_neg fun same => erased (first.trans same.symm)]
      · rw [if_neg first, if_neg first]

/-- What an insertion returns is what it replaces. -/
theorem fst_exchangeEntry (ascending : entries.Pairwise (·.1 < ·.1)) (name : String) (r : Record) :
    (exchangeEntry name r entries).1 = recordOf entries name := by
  induction entries with
  | nil => rfl
  | cons e rest ih =>
    obtain ⟨first, others⟩ := List.pairwise_cons.1 ascending
    unfold exchangeEntry
    rw [recordOf_cons]
    split
    · rename_i less
      have behind : recordOf rest name = none := recordOf_of_forall_lt fun f hf => String.lt_trans less (first f hf)
      rw [if_neg fun same => String.lt_irrefl _ (same ▸ less), behind]
    · by_cases same : name = e.1
      · rw [if_pos same, if_pos same.symm]
      · rw [if_neg same, if_neg (Ne.symm same)]
        exact ih others

theorem takeEntry_eq (ascending : entries.Pairwise (·.1 < ·.1)) (name : String) :
    takeEntry name entries = (recordOf entries name, entries.filter (·.1 ≠ name)) := by
  induction entries with
  | nil => rfl
  | cons e rest ih =>
    obtain ⟨first, others⟩ := List.pairwise_cons.1 ascending
    unfold takeEntry
    rw [recordOf_cons, List.filter_cons]
    by_cases same : e.1 = name
    · subst same
      have kept : rest.filter (·.1 ≠ e.1) = rest := by
        rw [List.filter_eq_self]
        intro f hf
        simpa using fun same : f.1 = e.1 => String.lt_irrefl _ (same ▸ first f hf)
      rw [if_pos rfl, if_pos rfl, if_neg (by simp), kept]
    · rw [if_neg same, if_neg same, if_pos (by simpa using same), ih others]

end

section

variable {s t : Snapshot} {name other : String} {r : Record}

theorem get?_eq_none_iff : s.get? name = none ↔ name ∉ s.names := recordOf_eq_none_iff

theorem exists_get?_iff : (∃ r, s.get? name = some r) ↔ name ∈ s.names := by
  rw [← Option.ne_none_iff_exists', ne_eq, get?_eq_none_iff, Decidable.not_not]

theorem get?_insert (s : Snapshot) (name other : String) (r : Record) :
    (s.insert name r).get? other = if name = other then some r else s.get? other :=
  recordOf_insertEntry s.ascending name other r

theorem get?_erase (s : Snapshot) (name other : String) :
    (s.erase name).get? other = if name = other then none else s.get? other :=
  recordOf_filter s.entries name other

/-- An insertion returns the record that was held until then. -/
theorem exchange_eq (s : Snapshot) (name : String) (r : Record) : s.exchange name r = (s.get? name, s.insert name r) :=
  Prod.ext (fst_exchangeEntry s.ascending name r) (eq_of_entries_eq (snd_exchangeEntry name r s.entries))

/-- A removal returns the record that was held until then. -/
theorem take_eq (s : Snapshot) (name : String) : s.take name = (s.get? name, s.erase name) := by
  have found := takeEntry_eq s.ascending name
  have old : (s.take name).1 = s.get? name := congrArg Prod.fst found
  have rest : (s.take name).2.entries = (s.erase name).entries := congrArg Prod.snd found
  exact Prod.ext old (eq_of_entries_eq rest)

theorem get?_eq_some_iff : s.get? name = some r ↔ (name, r) ∈ s.entries := recordOf_eq_some_iff s.nodup_names

theorem nodup_entries (s : Snapshot) : s.entries.Nodup :=
  List.Pairwise.of_map Prod.fst (fun _ _ different same => different (congrArg Prod.fst same)) s.nodup_names

/-- Snapshots with the same record under every name are equal. -/
theorem eq_of_get?_eq (h : ∀ name, s.get? name = t.get? name) : s = t := by
  apply eq_of_perm
  refine (List.perm_ext_iff_of_nodup s.nodup_entries t.nodup_entries).2 ?_
  rintro ⟨name, r⟩
  rw [← get?_eq_some_iff, ← get?_eq_some_iff, h]

end

end ClassLedger.Snapshot
