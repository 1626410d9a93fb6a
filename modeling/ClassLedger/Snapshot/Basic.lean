import ClassLedger.Record.Basic

/-!
# Snapshots

A snapshot holds the records that one build saw, by class name.  Its entries are kept in ascending order of their
names, without two of the same name, so snapshots with the same entries are equal.
-/

namespace ClassLedger

/-- The records of one build by class name. -/
structure Snapshot where
  entries : List (String × Record)
  ascending : entries.Pairwise (·.1 < ·.1)
  deriving DecidableEq

namespace Snapshot

def empty : Snapshot := ⟨[], .nil⟩

/-- The number of entries. -/
def size (s : Snapshot) : Nat := s.entries.length

def isEmpty (s : Snapshot) : Bool := s.entries.isEmpty

/-- The class names in ascending order. -/
def names (s : Snapshot) : List String := s.entries.map (·.1)

/-- The record of a class. -/
def get? (s : Snapshot) (name : String) : Option Record :=
  (s.entries.find? (·.1 = name)).map (·.2)

def contains (s : Snapshot) (name : String) : Bool := (s.get? name).isSome

/-- The entries with one put at its place, instead of an entry of the same name. -/
def insertEntry (name : String) (r : Record) : List (String × Record) → List (String × Record)
  | [] => [(name, r)]
  | e :: rest =>
    if name < e.1 then (name, r) :: e :: rest
    else if name = e.1 then (name, r) :: rest
    else e :: insertEntry name r rest

theorem mem_insertEntry {name : String} {r : Record} {entries : List (String × Record)} {e : String × Record}
    (h : e ∈ insertEntry name r entries) : e = (name, r) ∨ e ∈ entries := by
  induction entries with
  | nil => simpa [insertEntry] using h
  | cons a rest ih =>
    unfold insertEntry at h
    split at h
    · simpa using h
    · split at h
      · rcases List.mem_cons.1 h with h | h
        · exact .inl h
        · exact .inr (List.mem_cons_of_mem _ h)
      · rcases List.mem_cons.1 h with h | h
        · exact .inr (h ▸ List.mem_cons_self)
        · exact (ih h).imp_right (List.mem_cons_of_mem _)

theorem pairwise_insertEntry {name : String} {r : Record} {entries : List (String × Record)}
    (h : entries.Pairwise (·.1 < ·.1)) : (insertEntry name r entries).Pairwise (·.1 < ·.1) := by
  induction entries with
  | nil => simp [insertEntry]
  | cons a rest ih =>
    obtain ⟨first, others⟩ := List.pairwise_cons.1 h
    unfold insertEntry
    split
    · rename_i lt
      refine List.pairwise_cons.2 ⟨fun e he => ?_, h⟩
      rcases List.mem_cons.1 he with rfl | he
      · exact lt
      · exact String.lt_trans lt (first e he)
    · split
      · rename_i eq
        exact List.pairwise_cons.2 ⟨fun e he => eq ▸ first e he, others⟩
      · rename_i ge ne
        refine List.pairwise_cons.2 ⟨fun e he => ?_, ih others⟩
        rcases mem_insertEntry he with rfl | he
        · exact String.not_le.1 fun le => ne (String.le_antisymm le (String.not_lt.1 ge))
        · exact first e he

/-- The snapshot with the given record for a class. -/
def insert (s : Snapshot) (name : String) (r : Record) : Snapshot :=
  ⟨insertEntry name r s.entries, pairwise_insertEntry s.ascending⟩

/-- The snapshot without a class. -/
def erase (s : Snapshot) (name : String) : Snapshot :=
  ⟨s.entries.filter (·.1 ≠ name), s.ascending.filter _⟩

/-- The record that an entry takes the place of, and the entries with that one at its place. -/
def exchangeEntry (name : String) (r : Record) : List (String × Record) → Option Record × List (String × Record)
  | [] => (none, [(name, r)])
  | e :: rest =>
    if name < e.1 then (none, (name, r) :: e :: rest)
    else if name = e.1 then (some e.2, (name, r) :: rest)
    else
      let (old, rest) := exchangeEntry name r rest
      (old, e :: rest)

theorem snd_exchangeEntry (name : String) (r : Record) (entries : List (String × Record)) :
    (exchangeEntry name r entries).2 = insertEntry name r entries := by
  induction entries with
  | nil => rfl
  | cons e rest ih =>
    unfold exchangeEntry insertEntry
    rw [← ih]
    split
    · rfl
    · split <;> rfl

/-- The record that an entry of the given name holds, and the entries without that one. -/
def takeEntry (name : String) : List (String × Record) → Option Record × List (String × Record)
  | [] => (none, [])
  | e :: rest =>
    if e.1 = name then (some e.2, rest)
    else
      let (old, rest) := takeEntry name rest
      (old, e :: rest)

theorem snd_takeEntry_sublist (name : String) (entries : List (String × Record)) :
    (takeEntry name entries).2.Sublist entries := by
  induction entries with
  | nil => exact .refl _
  | cons e rest ih =>
    unfold takeEntry
    split
    · exact List.sublist_cons_self _ _
    · exact ih.cons_cons e

/-- Sets the record of a class and returns the one that it replaces. -/
def exchange (s : Snapshot) (name : String) (r : Record) : Option Record × Snapshot :=
  let found := exchangeEntry name r s.entries
  (found.1, ⟨found.2, snd_exchangeEntry name r s.entries ▸ pairwise_insertEntry s.ascending⟩)

/-- Removes a class and returns its record. -/
def take (s : Snapshot) (name : String) : Option Record × Snapshot :=
  let found := takeEntry name s.entries
  (found.1, ⟨found.2, s.ascending.sublist (snd_takeEntry_sublist name s.entries)⟩)

/-- The snapshot of the given entries, where a later entry replaces an earlier one of the same name. -/
def ofList (entries : List (String × Record)) : Snapshot :=
  entries.foldl (fun s (name, r) => s.insert name r) empty

end Snapshot

end ClassLedger
