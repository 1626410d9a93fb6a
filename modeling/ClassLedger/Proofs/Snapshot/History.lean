import ClassLedger.Proofs.Concat
import ClassLedger.Proofs.Snapshot.Form
import ClassLedger.Proofs.Snapshot.Lookup
import ClassLedger.Proofs.Text.Order
import ClassLedger.Snapshot.Standard
import Mathlib.Logic.Function.Basic

/-!
# Histories of snapshots

A program keeps snapshots at numbered places, all of them empty at first.  It inserts and removes records, collects
entries into a new snapshot and copies snapshots.  What a snapshot holds under a name is the record that was last put
there, along the way on which this snapshot came about; nothing else of its history can be seen in it, nor in its
bytes.
-/

namespace ClassLedger.Snapshot

/-! ### Steps -/

inductive Step where
  | insert (place : Nat) (name : String) (r : Record)
  | remove (place : Nat) (name : String)
  | collect (place : Nat) (entries : List (String × Record))
  | copy (source place : Nat)

/-- The place of the snapshot that the step makes or changes. -/
def Step.place : Step → Nat
  | insert place .. | remove place _ | collect place _ | copy _ place => place

/-- What the step returns, if it returns a record, and the snapshot that it leaves at its place. -/
def Step.perform (snapshots : Nat → Snapshot) : Step → Option Record × Snapshot
  | insert place name r => (snapshots place).exchange name r
  | remove place name => (snapshots place).take name
  | collect _ entries => (none, ofList entries)
  | copy source _ => (none, snapshots source)

def advance (snapshots : Nat → Snapshot) (step : Step) : Nat → Snapshot :=
  Function.update snapshots step.place (step.perform snapshots).2

/-- The snapshots after some steps. -/
def run (steps : List Step) : Nat → Snapshot := steps.foldl advance fun _ => empty

/-! ### Edits -/

/-- A change of what is held under one name. -/
inductive Edit where
  | put (name : String) (r : Record)
  | remove (name : String)

def Edit.name : Edit → String
  | put name _ | remove name => name

/-- All edits that led to the snapshot at the place of the step. -/
def Step.edits (histories : Nat → List Edit) : Step → List Edit
  | insert place name r => histories place ++ [.put name r]
  | remove place name => histories place ++ [.remove name]
  | collect _ entries => entries.map fun e => .put e.1 e.2
  | copy source _ => histories source

def note (histories : Nat → List Edit) (step : Step) : Nat → List Edit :=
  Function.update histories step.place (step.edits histories)

/-- The edits that led to each snapshot, also those of what it is a copy of. -/
def history (steps : List Step) : Nat → List Edit := steps.foldl note fun _ => []

/-- The record was put under the name, and no later edit concerns this name. -/
def LastPut (edits : List Edit) (name : String) (r : Record) : Prop :=
  ∃ earlier later, edits = earlier ++ .put name r :: later ∧ ∀ e ∈ later, e.name ≠ name

section

variable {edits : List Edit} {e : Edit} {name : String} {r : Record}

theorem not_lastPut_nil : ¬ LastPut [] name r := by
  rintro ⟨earlier, later, split, -⟩
  simp at split

theorem lastPut_concat_iff : LastPut (edits ++ [e]) name r ↔ e = .put name r ∨ e.name ≠ name ∧ LastPut edits name r := by
  constructor
  · rintro ⟨earlier, later, split, untouched⟩
    rcases concat_eq_append_cons_iff.1 split with ⟨-, rfl, rfl⟩ | ⟨rest, rfl, rfl⟩
    · exact .inl rfl
    · obtain ⟨others, last⟩ := List.forall_mem_append.1 untouched
      exact .inr ⟨last e List.mem_cons_self, earlier, rest, rfl, others⟩
  · rintro (rfl | ⟨other, earlier, later, rfl, untouched⟩)
    · exact ⟨edits, [], rfl, by simp⟩
    · refine ⟨earlier, later ++ [e], by simp, ?_⟩
      intro f hf
      rcases List.mem_append.1 hf with hf | hf
      · exact untouched f hf
      · obtain rfl := List.mem_singleton.1 hf
        exact other

end

/-- The snapshot holds what the edits have put last. -/
def Follows (s : Snapshot) (edits : List Edit) : Prop := ∀ name r, s.get? name = some r ↔ LastPut edits name r

section

variable {s : Snapshot} {edits : List Edit}

theorem follows_empty : empty.Follows [] := by
  intro name r
  exact iff_of_false (by simp [get?, empty]) not_lastPut_nil

theorem Follows.insert (follows : s.Follows edits) (name : String) (r : Record) :
    (s.insert name r).Follows (edits ++ [.put name r]) := by
  intro other q
  rw [get?_insert, lastPut_concat_iff, ← follows other q]
  by_cases same : name = other
  · subst same
    simp [Edit.name]
  · simp [same, Edit.name]

theorem Follows.erase (follows : s.Follows edits) (name : String) :
    (s.erase name).Follows (edits ++ [.remove name]) := by
  intro other q
  rw [get?_erase, lastPut_concat_iff, ← follows other q]
  by_cases same : name = other
  · simp [same, Edit.name]
  · simp [same, Edit.name]

theorem follows_ofList (entries : List (String × Record)) :
    (ofList entries).Follows (entries.map fun e => .put e.1 e.2) := by
  -- The induction needs any snapshot to start from.
  have onto {s : Snapshot} {edits : List Edit} (follows : s.Follows edits) :
      (entries.foldl (fun s e => s.insert e.1 e.2) s).Follows (edits ++ entries.map fun e => .put e.1 e.2) := by
    induction entries generalizing s edits with
    | nil => simpa using follows
    | cons e rest ih => simpa using ih (follows.insert e.1 e.2)
  exact onto follows_empty

end

section

variable {snapshots : Nat → Snapshot} {histories : Nat → List Edit}

theorem follows_perform (follows : ∀ place, (snapshots place).Follows (histories place)) (step : Step) :
    (step.perform snapshots).2.Follows (step.edits histories) := by
  cases step with
  | insert place name r =>
    rw [Step.perform, exchange_eq]
    exact (follows place).insert name r
  | remove place name =>
    rw [Step.perform, take_eq]
    exact (follows place).erase name
  | collect place entries => exact follows_ofList entries
  | copy source place => exact follows source

theorem follows_advance (follows : ∀ place, (snapshots place).Follows (histories place)) (step : Step) (place : Nat) :
    (advance snapshots step place).Follows (note histories step place) := by
  unfold advance note
  by_cases here : place = step.place
  · subst here
    rw [Function.update_self, Function.update_self]
    exact follows_perform follows step
  · rw [Function.update_of_ne here, Function.update_of_ne here]
    exact follows place

theorem follows_foldl_advance (follows : ∀ place, (snapshots place).Follows (histories place)) (steps : List Step)
    (place : Nat) : (steps.foldl advance snapshots place).Follows (steps.foldl note histories place) := by
  induction steps generalizing snapshots histories with
  | nil => exact follows place
  | cons step steps ih => exact ih (follows_advance follows step)

theorem follows_run (steps : List Step) (place : Nat) : (run steps place).Follows (history steps place) :=
  follows_foldl_advance (fun _ => follows_empty) steps place

end

theorem pairwise_utf8_names (s : Snapshot) : (s.names.map Text.utf8).Pairwise (· < ·) := by
  rw [names, List.map_map, List.pairwise_map]
  exact s.ascending.imp Text.utf8_lt

/-- Plain forms are the same exactly for snapshots that hold the same, whether or not they could be read again. -/
theorem encode_plain_eq_iff {p : Primitives} {s t : Snapshot} {level level' : Int32} {bytes bytes' : List UInt8}
    (encoded : s.encode p { level } = .ok bytes) (encoded' : t.encode p { level := level' } = .ok bytes') :
    bytes = bytes' ↔ ∀ name, s.get? name = t.get? name := by
  rw [encode_plain, encodePlain_eq_ok_iff] at encoded encoded'
  obtain ⟨-, small, rfl⟩ := encoded
  obtain ⟨-, -, rfl⟩ := encoded'
  constructor
  · intro same
    rw [eq_of_entries_eq (plainForm_injective small same)]
    exact fun _ => rfl
  · intro same
    rw [eq_of_get?_eq same]

/-- After any steps a snapshot holds what was last put under each name, has its names in ascending order of their
bytes and as many entries as names, and a step returns what was held before it.  Two snapshots with any histories have
the same plain form exactly if they hold the same. -/
theorem run_characterized (steps : List Step) (place : Nat) :
    (∀ name r, (run steps place).get? name = some r ↔ LastPut (history steps place) name r) ∧
    (∀ name r, ((Step.insert place name r).perform (run steps)).1 = (run steps place).get? name) ∧
    (∀ name, ((Step.remove place name).perform (run steps)).1 = (run steps place).get? name) ∧
    ((run steps place).names.map Text.utf8).Pairwise (· < ·) ∧
    (∀ name r, (name, r) ∈ (run steps place).entries ↔ (run steps place).get? name = some r) ∧
    ((run steps place).size = (run steps place).names.length ∧ (run steps place).names.Nodup ∧
      ∀ name, name ∈ (run steps place).names ↔ ∃ r, LastPut (history steps place) name r) ∧
    ∀ p steps' place' level level' bytes bytes', (run steps place).encode p { level } = .ok bytes →
      (run steps' place').encode p { level := level' } = .ok bytes' →
      (bytes = bytes' ↔ ∀ name, (run steps place).get? name = (run steps' place').get? name) := by
  have follows := follows_run steps place
  refine ⟨follows, ?inserted, ?removed, pairwise_utf8_names _, fun _ _ => get?_eq_some_iff.symm, ?size, ?bytes⟩
  case inserted => exact fun name r => congrArg Prod.fst (exchange_eq _ name r)
  case removed => exact fun name => congrArg Prod.fst (take_eq _ name)
  case size =>
    refine ⟨(List.length_map _).symm, nodup_names _, fun name => ?_⟩
    rw [← exists_get?_iff]
    exact exists_congr (follows name)
  case bytes => exact fun _ _ _ _ _ _ _ encoded encoded' => encode_plain_eq_iff encoded encoded'

/-- A copy that was made before a removal, and a snapshot with other entries until it was brought in line. -/
theorem run_characterized_copied :
    let p := Primitives.standard
    let steps : List Step := [.insert 0 "A" {}, .insert 0 "B" { kind := 1 }, .copy 0 1, .remove 0 "A"]
    let steps' : List Step :=
      [.collect 0 [("C", {}), ("B", {})], .insert 0 "B" { kind := 1 }, .insert 0 "A" {}, .remove 0 "C"]
    ∃ bytes, (run steps 1).encode p {} = .ok bytes ∧ (run steps' 0).encode p {} = .ok bytes := by
  intro p steps steps'
  have same : run steps 1 = run steps' 0 := by decide +kernel
  have length : (plainForm p (run steps 1).entries).length = 107 := by
    rw [plainForm, length_sealed]
    decide +kernel
  obtain ⟨bytes, encoded⟩ : ∃ bytes, (run steps 1).encode p {} = .ok bytes := by
    rw [encode_plain]
    exact ⟨_, encodePlain_eq_ok_iff.2 ⟨by decide +kernel, by rw [length]; decide, rfl⟩⟩
  obtain ⟨bytes', encoded'⟩ : ∃ bytes, (run steps' 0).encode p {} = .ok bytes := by
    rw [encode_plain]
    exact ⟨_, encodePlain_eq_ok_iff.2 ⟨by decide +kernel, by rw [← same, length]; decide, rfl⟩⟩
  obtain ⟨-, -, -, -, -, -, form⟩ := run_characterized steps 1
  obtain rfl := (form p steps' 0 _ _ bytes bytes' encoded encoded').2 fun name => by rw [same]
  exact ⟨bytes, encoded, encoded'⟩

end ClassLedger.Snapshot
