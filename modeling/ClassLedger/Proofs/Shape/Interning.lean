import ClassLedger.Proofs.Shape.Steps

/-!
# Strings keep their places

Whatever a composer is asked to append, its table holds the distinct strings so far in the order of their first use, and
its map sends each of them to its place.  The table only grows at its end, so a place that was written into the bytes
refers to the same string in every later table.  The table of a record is the last table of such a composer, so it holds
the names of the shape in the order of their first use.
-/

namespace ClassLedger.Payload

open Step

namespace Composer

variable {c : Composer} {steps : List Step}

/-- The map and the table are inverse to each other. -/
theorem Composed.places_eq_some_iff (h : Composed c steps) {s : String} {place : Nat} :
    c.places[s]? = some place ↔ c.strings[place]? = some s := by
  rw [h.places, ← Array.getElem?_toList, h.strings]
  constructor
  · intro found
    split at found
    · rename_i known
      obtain rfl := Option.some.inj found
      rw [List.getElem?_eq_getElem (List.idxOf_lt_length_of_mem known), List.getElem_idxOf]
    · cases found
  · intro found
    obtain ⟨less, rfl⟩ := List.getElem?_eq_some_iff.1 found
    rw [if_pos (List.getElem_mem less), (nodup_table steps).idxOf_getElem]

theorem Composed.ofBytes_toList (h : Composed c steps) :
    Field.ofBytes c.buffer.toList = (steps.map (toField (table steps)), none) := by
  rw [h.bytes, Step.bytes]
  exact Field.ofBytes_form _

end Composer

/-- The field for a string that was used refers to it in the table of these steps and of all that follow. -/
theorem Step.string_toField_text {steps : List Step} {number : UInt64} {s : String} (used : .text number s ∈ steps)
    (small : (table steps).length ≤ UInt64.size) (more : List Step) :
    ((Step.text number s).toField (table steps)).string (table (steps ++ more)).toArray = .ok s := by
  have known : s ∈ table steps := mem_table.2 ⟨_, used, rfl⟩
  have now : ((Step.text number s).toField (table steps)).string (table steps).toArray = .ok s :=
    Field.string_idxOf small number known
  obtain ⟨added, grown⟩ := table_prefix_append steps more
  rw [← grown, ← List.append_toArray]
  exact Field.string_append now added.toArray

/-- After any steps the table holds the distinct strings in the order of their first use, and the map leads exactly from
each of them to its place.  The bytes are read as one field for each step, and the field of a string refers to it in the
table of that time and in every later one, as long as 64 bits can tell the places apart.  So the table of the record of
a shape holds the names of the shape, each of them once and in the order of their first use. -/
theorem foldl_put_interned (steps : List Step) :
    let c := steps.foldl Composer.put .empty
    (c.strings.toList.Nodup ∧ FirstUses (steps.filterMap text?) c.strings.toList) ∧
    (∀ (s : String) (place : Nat), c.places[s]? = some place ↔ c.strings[place]? = some s) ∧
    (c.strings.size ≤ UInt64.size → ∃ fields, Field.ofBytes c.buffer.toList = (fields, none) ∧
      fields.length = steps.length ∧
      ∀ (i : Nat) (number : UInt64) (s : String), steps[i]? = some (.text number s) →
        ∃ f, fields[i]? = some f ∧ f.tag = number ∧
          ∀ more : List Step, f.string (more.foldl Composer.put c).strings = .ok s) ∧
    ∀ (shape : Shape) (version : List Int32) (packageName : String),
      let strings := (shape.toRecord version packageName).strings
      strings.Nodup ∧ FirstUses shape.names strings := by
  intro c
  have composed : Composer.Composed c steps := Composer.composed_empty.foldl_put steps
  have uses : FirstUses (steps.filterMap text?) c.strings.toList := by
    rw [composed.strings]
    exact firstUses_eraseDups _
  refine ⟨⟨uses.nodup, uses⟩, fun s place => composed.places_eq_some_iff, fun small => ?_, ?_⟩
  · have small : (table steps).length ≤ UInt64.size := by
      rwa [← composed.strings, Array.length_toList]
    refine ⟨_, composed.ofBytes_toList, List.length_map _, fun i number s step => ?_⟩
    refine ⟨(Step.text number s).toField (table steps), by rw [List.getElem?_map, step, Option.map_some], rfl, ?_⟩
    intro more
    have later : (more.foldl Composer.put c).strings = (table (steps ++ more)).toArray := by
      rw [← (composed.foldl_put more).strings, Array.toArray_toList]
    rw [later]
    exact string_toField_text (List.mem_of_getElem? step) small more
  · intro shape version packageName strings
    have names : FirstUses shape.names strings := by
      have table : strings = shape.names.eraseDups := shape.payload_snd
      rw [table]
      exact firstUses_eraseDups _
    exact ⟨names.nodup, names⟩

/-- A string that is used twice stands in the table once, and is found there when more strings have come. -/
theorem foldl_put_interned_repeated :
    let steps : List Step := [.text 6 "run", .word 9 (-8), .text 77 "state", .field 5 300, .text 6 "run"]
    let c := steps.foldl Composer.put .empty
    c.strings.toList = ["run", "state"] ∧
    c.strings.size ≤ UInt64.size ∧
    ∃ f, (Field.ofBytes c.buffer.toList).1[4]? = some f ∧ f.tag = 6 ∧
      f.string (c.put (.text 8 "T")).strings = .ok "run" := by
  intro steps c
  have strings : c.strings.toList = ["run", "state"] :=
    (Composer.composed_empty.foldl_put steps).strings.trans (by decide +kernel)
  have small : c.strings.size ≤ UInt64.size := by
    rw [← Array.length_toList, strings]
    decide
  obtain ⟨-, -, emitted, -⟩ := foldl_put_interned steps
  obtain ⟨fields, read, -, resolved⟩ := emitted small
  obtain ⟨f, found, tag, later⟩ := resolved 4 6 "run" rfl
  refine ⟨strings, small, f, ?_, tag, later [.text 8 "T"]⟩
  rw [show Field.ofBytes c.buffer.toList = (fields, none) from read]
  exact found

end ClassLedger.Payload
