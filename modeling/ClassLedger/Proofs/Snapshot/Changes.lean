import ClassLedger.Proofs.Record.Difference
import ClassLedger.Proofs.Snapshot.Lookup
import ClassLedger.Snapshot.Comparison

/-!
# The classes that changed

What is reported for a class depends only on the records under its name in the two snapshots (`changeAt`), and a
comparison reports just that, in ascending order of the names.  So the report can be read class by class, turned
around, and used to bring the past snapshot up to date.
-/

namespace ClassLedger

/-- The same difference seen from the other snapshot. -/
def ClassChange.mirrored : ClassChange → ClassChange
  | added name => removed name
  | removed name => added name
  | changed name change => changed name change

@[simp]
theorem ClassChange.name_mirrored (x : ClassChange) : x.mirrored.name = x.name := by
  cases x <;> rfl

namespace Snapshot

variable {current past : Snapshot} {cs ps : List (String × Record)} {x : ClassChange} {name : String}

/-- The change of a class from its record in either snapshot. -/
def changeAt (name : String) (current past : Option Record) : Option ClassChange :=
  match current, past with
  | none, none => none
  | some _, none => some (.added name)
  | none, some _ => some (.removed name)
  | some r, some q => changeOf name r q

theorem name_of_changeAt {r q : Option Record} (h : changeAt name r q = some x) : x.name = name := by
  unfold changeAt at h
  split at h
  · cases h
  · obtain rfl := Option.some.inj h
    rfl
  · obtain rfl := Option.some.inj h
    rfl
  · unfold changeOf at h
    split at h
    · cases h
    · obtain rfl := Option.some.inj h
      rfl

theorem changeAt_eq_none_iff {r q : Option Record} : changeAt name r q = none ↔ r = q := by
  cases r <;> cases q <;> simp [changeAt, changeOf, Record.unchangedFrom_iff]

theorem changeAt_comm (name : String) (r q : Option Record) :
    changeAt name q r = (changeAt name r q).map ClassChange.mirrored := by
  cases r with
  | none => cases q <;> rfl
  | some r =>
    cases q with
    | none => rfl
    | some q =>
      by_cases same : r = q
      · simp [changeAt, changeOf, Record.unchangedFrom_iff, same]
      · simp [changeAt, changeOf, Record.unchangedFrom_iff, same, Ne.symm same, Record.changeFrom_comm q r,
          ClassChange.mirrored]

/-! ### Walking side by side -/

private theorem mem_map_iff {make : String → ClassChange} (name_make : ∀ name, (make name).name = name)
    (entries : List (String × Record)) :
    x ∈ entries.map (fun e => make e.1) ↔ make x.name = x ∧ recordOf entries x.name ≠ none := by
  rw [ne_eq, recordOf_eq_none_iff, Decidable.not_not, List.mem_map, List.mem_map]
  constructor
  · rintro ⟨e, he, rfl⟩
    rw [name_make]
    exact ⟨rfl, e, he, rfl⟩
  · rintro ⟨made, e, he, same⟩
    exact ⟨e, he, by rw [same, made]⟩

/-- What is reported for a name and for later ones, where the name is not found later and the others not before. -/
private theorem mem_report_iff (name : String) (here : Option ClassChange) {later : List ClassChange}
    {r q r' q' : Option Record} (laterIff : x ∈ later ↔ changeAt x.name r' q' = some x)
    (named : ∀ y ∈ here, y.name = name)
    (found : name = x.name → here = changeAt name r q ∧ r' = none ∧ q' = none)
    (other : name ≠ x.name → r = r' ∧ q = q') :
    x ∈ here.toList ++ later ↔ changeAt x.name r q = some x := by
  rw [List.mem_append, Option.mem_toList, laterIff]
  by_cases same : name = x.name
  · obtain ⟨rfl, rfl, rfl⟩ := found same
    rw [same]
    simp [changeAt]
  · obtain ⟨rfl, rfl⟩ := other same
    exact or_iff_right fun reported => same (named x reported).symm

/-- A walk through ascending entries reports the change at every name. -/
theorem mem_compareEntries_iff (hc : cs.Pairwise (·.1 < ·.1)) (hp : ps.Pairwise (·.1 < ·.1)) :
    x ∈ compareEntries cs ps ↔ changeAt x.name (recordOf cs x.name) (recordOf ps x.name) = some x := by
  induction cs, ps using compareEntries.induct with
  | case1 ps =>
    rw [compareEntries, mem_map_iff fun _ => rfl, recordOf_nil]
    cases recordOf ps x.name <;> simp [changeAt]
  | case2 cs nonempty =>
    rw [compareEntries, mem_map_iff fun _ => rfl, recordOf_nil]
    · cases recordOf cs x.name <;> simp [changeAt]
    · exact nonempty
  -- The name at hand stands before all others of both snapshots.
  | case3 c cs p ps lt ih =>
    obtain ⟨firstC, othersC⟩ := List.pairwise_cons.1 hc
    obtain ⟨firstP, -⟩ := List.pairwise_cons.1 hp
    have behind : ∀ e ∈ p :: ps, c.1 < e.1 :=
      List.forall_mem_cons.2 ⟨lt, fun e he => String.lt_trans lt (firstP e he)⟩
    rw [compareEntries, if_pos lt]
    refine mem_report_iff c.1 (some (.added c.1)) (ih othersC hp) (fun y hy => by cases hy; rfl) ?_ ?_
    · intro same
      rw [← same, recordOf_cons, if_pos rfl, recordOf_of_forall_lt firstC, recordOf_of_forall_lt behind]
      exact ⟨rfl, rfl, rfl⟩
    · intro different
      rw [recordOf_cons, if_neg different]
      exact ⟨rfl, rfl⟩
  | case4 c cs p ps ge lt ih =>
    obtain ⟨firstC, -⟩ := List.pairwise_cons.1 hc
    obtain ⟨firstP, othersP⟩ := List.pairwise_cons.1 hp
    have behind : ∀ e ∈ c :: cs, p.1 < e.1 :=
      List.forall_mem_cons.2 ⟨lt, fun e he => String.lt_trans lt (firstC e he)⟩
    rw [compareEntries, if_neg ge, if_pos lt]
    refine mem_report_iff p.1 (some (.removed p.1)) (ih hc othersP) (fun y hy => by cases hy; rfl) ?_ ?_
    · intro same
      rw [← same, recordOf_cons p, if_pos rfl, recordOf_of_forall_lt firstP, recordOf_of_forall_lt behind]
      exact ⟨rfl, rfl, rfl⟩
    · intro different
      rw [recordOf_cons p, if_neg different]
      exact ⟨rfl, rfl⟩
  | case5 c cs p ps ge le ih =>
    obtain ⟨firstC, othersC⟩ := List.pairwise_cons.1 hc
    obtain ⟨firstP, othersP⟩ := List.pairwise_cons.1 hp
    have both : p.1 = c.1 := String.le_antisymm (String.not_lt.1 ge) (String.not_lt.1 le)
    rw [both] at firstP
    rw [compareEntries, if_neg ge, if_neg le]
    refine mem_report_iff c.1 _ (ih othersC othersP)
      (fun y hy => name_of_changeAt (r := some c.2) (q := some p.2) hy) ?_ ?_
    · intro same
      rw [← same, recordOf_cons, recordOf_cons p, if_pos rfl, if_pos both, recordOf_of_forall_lt firstC,
        recordOf_of_forall_lt firstP]
      exact ⟨rfl, rfl, rfl⟩
    · intro different
      rw [recordOf_cons, recordOf_cons p, if_neg different, if_neg (both ▸ different)]
      exact ⟨rfl, rfl⟩

/-- Only classes of the two snapshots are reported. -/
theorem name_mem_of_mem_compareEntries (hc : cs.Pairwise (·.1 < ·.1)) (hp : ps.Pairwise (·.1 < ·.1))
    (h : x ∈ compareEntries cs ps) : x.name ∈ cs.map (·.1) ∨ x.name ∈ ps.map (·.1) := by
  rw [mem_compareEntries_iff hc hp] at h
  refine Decidable.or_iff_not_imp_left.2 fun notC => Decidable.byContradiction fun notP => ?_
  rw [recordOf_eq_none_iff.2 notC, recordOf_eq_none_iff.2 notP] at h
  cases h

/-- A name before those of all entries is before every name that is reported. -/
theorem lt_name_of_mem_compareEntries (hc : cs.Pairwise (·.1 < ·.1)) (hp : ps.Pairwise (·.1 < ·.1))
    (beforeC : ∀ e ∈ cs, name < e.1) (beforeP : ∀ e ∈ ps, name < e.1) : ∀ x ∈ compareEntries cs ps, name < x.name := by
  intro x hx
  rcases name_mem_of_mem_compareEntries hc hp hx with found | found
  · obtain ⟨e, he, same⟩ := List.mem_map.1 found
    exact same ▸ beforeC e he
  · obtain ⟨e, he, same⟩ := List.mem_map.1 found
    exact same ▸ beforeP e he

theorem pairwise_compareEntries (hc : cs.Pairwise (·.1 < ·.1)) (hp : ps.Pairwise (·.1 < ·.1)) :
    (compareEntries cs ps).Pairwise (·.name < ·.name) := by
  induction cs, ps using compareEntries.induct with
  | case1 ps =>
    rw [compareEntries, List.pairwise_map]
    exact hp
  | case2 cs nonempty =>
    rw [compareEntries, List.pairwise_map]
    · exact hc
    · exact nonempty
  | case3 c cs p ps lt ih =>
    obtain ⟨firstC, othersC⟩ := List.pairwise_cons.1 hc
    obtain ⟨firstP, -⟩ := List.pairwise_cons.1 hp
    rw [compareEntries, if_pos lt]
    refine List.pairwise_cons.2 ⟨lt_name_of_mem_compareEntries othersC hp firstC ?_, ih othersC hp⟩
    exact List.forall_mem_cons.2 ⟨lt, fun e he => String.lt_trans lt (firstP e he)⟩
  | case4 c cs p ps ge lt ih =>
    obtain ⟨firstC, -⟩ := List.pairwise_cons.1 hc
    obtain ⟨firstP, othersP⟩ := List.pairwise_cons.1 hp
    rw [compareEntries, if_neg ge, if_pos lt]
    refine List.pairwise_cons.2 ⟨lt_name_of_mem_compareEntries hc othersP ?_ firstP, ih hc othersP⟩
    exact List.forall_mem_cons.2 ⟨lt, fun e he => String.lt_trans lt (firstC e he)⟩
  | case5 c cs p ps ge le ih =>
    obtain ⟨firstC, othersC⟩ := List.pairwise_cons.1 hc
    obtain ⟨firstP, othersP⟩ := List.pairwise_cons.1 hp
    have both : p.1 = c.1 := String.le_antisymm (String.not_lt.1 ge) (String.not_lt.1 le)
    rw [both] at firstP
    rw [compareEntries, if_neg ge, if_neg le]
    refine List.pairwise_append.2 ⟨?_, ih othersC othersP, ?_⟩
    · cases changeOf c.1 c.2 p.2 <;> simp
    · intro y hy z hz
      rw [name_of_changeAt (r := some c.2) (q := some p.2) (Option.mem_toList.1 hy)]
      exact lt_name_of_mem_compareEntries othersC othersP firstC firstP z hz

/-! ### Reports -/

theorem mem_changesFrom_iff :
    x ∈ current.changesFrom past ↔ changeAt x.name (current.get? x.name) (past.get? x.name) = some x :=
  mem_compareEntries_iff current.ascending past.ascending

theorem pairwise_changesFrom (current past : Snapshot) : (current.changesFrom past).Pairwise (·.name < ·.name) :=
  pairwise_compareEntries current.ascending past.ascending

theorem added_mem_iff : .added name ∈ current.changesFrom past ↔ name ∈ current.names ∧ name ∉ past.names := by
  rw [mem_changesFrom_iff, ← exists_get?_iff, ← get?_eq_none_iff]
  show changeAt name (current.get? name) (past.get? name) = _ ↔ _
  cases current.get? name <;> cases past.get? name <;> simp [changeAt, changeOf]

theorem removed_mem_iff : .removed name ∈ current.changesFrom past ↔ name ∉ current.names ∧ name ∈ past.names := by
  rw [mem_changesFrom_iff, ← get?_eq_none_iff, ← exists_get?_iff]
  show changeAt name (current.get? name) (past.get? name) = _ ↔ _
  cases current.get? name <;> cases past.get? name <;> simp [changeAt, changeOf]

theorem changed_mem_iff {change : Change} : .changed name change ∈ current.changesFrom past ↔
    ∃ r q, current.get? name = some r ∧ past.get? name = some q ∧ r ≠ q ∧ change = r.changeFrom q := by
  rw [mem_changesFrom_iff]
  show changeAt name (current.get? name) (past.get? name) = _ ↔ _
  cases current.get? name with
  | none => cases past.get? name <;> simp [changeAt]
  | some r =>
    cases past.get? name with
    | none => simp [changeAt]
    | some q =>
      by_cases same : r = q
      · simp [changeAt, changeOf, Record.unchangedFrom_iff, same]
      · simp [changeAt, changeOf, Record.unchangedFrom_iff, same, eq_comm (a := change)]

/-- Reports in ascending order are equal if they report the same changes. -/
private theorem eq_of_mem_iff {xs ys : List ClassChange} (hx : xs.Pairwise (·.name < ·.name))
    (hy : ys.Pairwise (·.name < ·.name)) (same : ∀ x, x ∈ xs ↔ x ∈ ys) : xs = ys := by
  have nodup {xs : List ClassChange} (h : xs.Pairwise (·.name < ·.name)) : xs.Nodup := by
    refine h.imp ?_
    rintro x y lt rfl
    exact String.lt_irrefl _ lt
  have perm : xs.Perm ys := (List.perm_ext_iff_of_nodup (nodup hx) (nodup hy)).2 same
  refine perm.eq_of_pairwise ?_ hx hy
  intro x y _ _ lt gt
  exact absurd gt (String.lt_asymm lt)

/-- The comparison the other way round reports the mirrored changes. -/
theorem changesFrom_comm (current past : Snapshot) :
    past.changesFrom current = (current.changesFrom past).map ClassChange.mirrored := by
  refine eq_of_mem_iff (pairwise_changesFrom past current) ?_ fun x => ?_
  · rw [List.pairwise_map]
    simpa only [ClassChange.name_mirrored] using pairwise_changesFrom current past
  · rw [mem_changesFrom_iff, changeAt_comm, Option.map_eq_some_iff, List.mem_map]
    constructor
    · rintro ⟨y, reported, rfl⟩
      rw [ClassChange.name_mirrored] at reported
      exact ⟨y, mem_changesFrom_iff.2 reported, rfl⟩
    · rintro ⟨y, reported, rfl⟩
      rw [ClassChange.name_mirrored]
      exact ⟨y, mem_changesFrom_iff.1 reported, rfl⟩

/-- A class about which nothing is reported has the same record in both snapshots, or none. -/
theorem get?_eq_of_not_reported (h : name ∉ (current.changesFrom past).map ClassChange.name) :
    current.get? name = past.get? name := by
  rw [← @changeAt_eq_none_iff name, Option.eq_none_iff_forall_ne_some]
  intro x reported
  obtain rfl := name_of_changeAt reported
  exact h (List.mem_map_of_mem (mem_changesFrom_iff.2 reported))

/-! ### Bringing a snapshot up to date -/

/-- The snapshot in which the class of a change is as in `current`: it is removed, or its record put in. -/
def adopt (current s : Snapshot) : ClassChange → Snapshot
  | .removed name => s.erase name
  | .added name | .changed name _ => (current.get? name).elim s (s.insert name)

theorem get?_adopt (h : x ∈ current.changesFrom past) (s : Snapshot) (name : String) :
    (current.adopt s x).get? name = if x.name = name then current.get? name else s.get? name := by
  have inserted {r : Record} {changed : String} (found : current.get? changed = some r) :
      ((current.get? changed).elim s (s.insert changed)).get? name =
        if changed = name then current.get? name else s.get? name := by
    rw [found, Option.elim_some, get?_insert]
    split
    · rename_i same
      rw [← same, found]
    · rfl
  cases x with
  | added changed =>
    obtain ⟨r, found⟩ := exists_get?_iff.2 (added_mem_iff.1 h).1
    exact inserted found
  | removed removed =>
    have absent := get?_eq_none_iff.2 (removed_mem_iff.1 h).1
    show (s.erase removed).get? name = if removed = name then _ else _
    rw [get?_erase]
    split
    · rename_i same
      rw [← same, absent]
    · rfl
  | changed changed change =>
    obtain ⟨r, -, found, -⟩ := changed_mem_iff.1 h
    exact inserted found

/-- After the classes of some changes were brought up to date, the others are as before. -/
theorem get?_foldl_adopt {changes : List ClassChange} (h : ∀ x ∈ changes, x ∈ current.changesFrom past)
    (s : Snapshot) (name : String) : (changes.foldl current.adopt s).get? name =
      if name ∈ changes.map ClassChange.name then current.get? name else s.get? name := by
  induction changes generalizing s with
  | nil => rfl
  | cons x rest ih =>
    obtain ⟨first, others⟩ := List.forall_mem_cons.1 h
    rw [List.foldl_cons, ih others, get?_adopt first]
    by_cases later : name ∈ rest.map ClassChange.name
    · simp [later]
    · simp [later, eq_comm]

theorem foldl_adopt_changesFrom (current past : Snapshot) :
    (current.changesFrom past).foldl current.adopt past = current := by
  apply eq_of_get?_eq
  intro name
  rw [get?_foldl_adopt fun _ h => h]
  split
  · rfl
  · rename_i silent
    exact (get?_eq_of_not_reported silent).symm

theorem changesFrom_eq_nil_iff : current.changesFrom past = [] ↔ current = past := by
  constructor
  · intro nothing
    have updated := foldl_adopt_changesFrom current past
    rw [nothing] at updated
    exact updated.symm
  · rintro rfl
    rw [List.eq_nil_iff_forall_not_mem]
    intro x reported
    rw [mem_changesFrom_iff, changeAt_eq_none_iff.2 rfl] at reported
    cases reported

/-- A comparison reports each class that differs exactly once, in ascending order: as added or removed if it is in one
snapshot only, and as changed if its records differ, with the groups of fields in which they do, of which there is at
least one.  Nothing is reported exactly between equal snapshots.  The report brings the past snapshot up to date, and
mirrored it is the report of the comparison the other way round. -/
theorem changesFrom_characterized (current past : Snapshot) :
    (current.changesFrom past).Pairwise (·.name < ·.name) ∧
    (∀ name, .added name ∈ current.changesFrom past ↔ name ∈ current.names ∧ name ∉ past.names) ∧
    (∀ name, .removed name ∈ current.changesFrom past ↔ name ∉ current.names ∧ name ∈ past.names) ∧
    (∀ name change, .changed name change ∈ current.changesFrom past ↔
      ∃ r q, current.get? name = some r ∧ past.get? name = some q ∧ r ≠ q ∧ change = r.changeFrom q) ∧
    (∀ name change, .changed name change ∈ current.changesFrom past → ∃ group, change.contains group) ∧
    (current.changesFrom past = [] ↔ current = past) ∧
    (current.changesFrom past).foldl current.adopt past = current ∧
    past.changesFrom current = (current.changesFrom past).map ClassChange.mirrored := by
  refine ⟨pairwise_changesFrom current past, fun _ => added_mem_iff, fun _ => removed_mem_iff,
    fun _ _ => changed_mem_iff, ?_, changesFrom_eq_nil_iff, foldl_adopt_changesFrom current past,
    changesFrom_comm current past⟩
  intro name change reported
  obtain ⟨r, q, -, -, different, rfl⟩ := changed_mem_iff.1 reported
  exact Record.exists_contains_changeFrom different

/-- One class is removed, one gets another kind, one stays as it was and one is added. -/
theorem changesFrom_characterized_revised :
    let past := ofList [("A", {}), ("B", { kind := 1 }), ("C", {})]
    let current := ofList [("B", { kind := 2 }), ("C", {}), ("D", {})]
    .changed "B" { kind := true } ∈ current.changesFrom past ∧ (∃ group, Change.contains { kind := true } group) ∧
      [ClassChange.removed "A", .changed "B" { kind := true }, .added "D"].foldl current.adopt past = current := by
  intro past current
  obtain ⟨-, -, -, changed, group, -⟩ := changesFrom_characterized current past
  have reported : .changed "B" { kind := true } ∈ current.changesFrom past :=
    (changed _ _).2 ⟨{ kind := 2 }, { kind := 1 }, by decide, by decide, by decide, by decide⟩
  exact ⟨reported, group _ _ reported, by decide⟩

end Snapshot

end ClassLedger
