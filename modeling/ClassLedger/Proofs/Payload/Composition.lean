import ClassLedger.Payload.Composer
import ClassLedger.Proofs.Payload.Fields
import ClassLedger.Proofs.Wire.Writing
import Mathlib.Data.List.Induction

/-!
# What a composer holds

A composer is asked to append strings, flag words and other fields, step by step.  After any steps its table holds
the distinct strings in the order of their first use, and its bytes are the fields of all steps, each string standing
for its place in the table.  Later steps only add to the table, so places that were given stay right.
-/

namespace ClassLedger.Payload

open Wire

/-! ### First uses -/

/-- The table holds the distinct strings of `texts` in the order in which they are first used. -/
structure FirstUses (texts table : List String) : Prop where
  mem_iff : ∀ s, s ∈ table ↔ s ∈ texts
  ordered : table.Pairwise fun s t => texts.idxOf s < texts.idxOf t

theorem FirstUses.nodup {texts table : List String} (h : FirstUses texts table) : table.Nodup := by
  refine h.ordered.imp fun less same => ?_
  rw [same] at less
  exact Nat.lt_irrefl _ less

private theorem eraseDups_append_singleton (texts : List String) (s : String) :
    (texts ++ [s]).eraseDups = if s ∈ texts then texts.eraseDups else texts.eraseDups ++ [s] := by
  rw [List.eraseDups_append]
  by_cases known : s ∈ texts
  · have nothing : [s].removeAll texts = [] := by simp [List.removeAll, known]
    rw [if_pos known, nothing, List.eraseDups_nil, List.append_nil]
  · have itself : [s].removeAll texts = [s] := by simp [List.removeAll, known]
    rw [if_neg known, itself]
    rfl

theorem firstUses_eraseDups (texts : List String) : FirstUses texts texts.eraseDups := by
  refine ⟨fun s => List.mem_eraseDups, ?_⟩
  induction texts using List.reverseRecOn with
  | nil => exact .nil
  | append_singleton texts s ih =>
    have place {t : String} (ht : t ∈ texts.eraseDups) : (texts ++ [s]).idxOf t = texts.idxOf t := by
      rw [List.idxOf_append, if_pos (List.mem_eraseDups.1 ht)]
    -- one more text changes no place, and a new one comes behind all others
    have before : texts.eraseDups.Pairwise fun t u => (texts ++ [s]).idxOf t < (texts ++ [s]).idxOf u := by
      refine ih.imp_of_mem fun ht hu less => ?_
      rwa [place ht, place hu]
    rw [eraseDups_append_singleton]
    by_cases known : s ∈ texts
    · rwa [if_pos known]
    · rw [if_neg known, List.pairwise_append]
      refine ⟨before, List.pairwise_singleton _ s, fun t ht u hu => ?_⟩
      obtain rfl := List.mem_singleton.1 hu
      have less := List.idxOf_lt_length_of_mem (List.mem_eraseDups.1 ht)
      rw [place ht, List.idxOf_append, if_neg known, List.idxOf_cons_self]
      omega

/-! ### Steps -/

/-- What a composer is asked to append. -/
inductive Step where
  | text (number : UInt64) (s : String)
  | word (number : UInt64) (flags : Int32)
  | field (number value : UInt64)

namespace Step

/-- The steps with a tag of the format. -/
abbrev string (tag : Tag) (s : String) : Step := text tag.number s

abbrev flags (tag : Tag) (word : Int32) : Step := .word tag.number word

def text? : Step → Option String
  | text _ s => some s
  | word .. | field .. => none

/-- The field for a step where the strings have their places in the table. -/
def toField (table : List String) : Step → Field
  | text number s => ⟨number, .ofNat (table.idxOf s)⟩
  | word number flags => ⟨number, flags.toUInt32.toUInt64⟩
  | field number value => ⟨number, value⟩

/-- The distinct strings of some steps in the order of their first use. -/
def table (steps : List Step) : List String := (steps.filterMap text?).eraseDups

theorem mem_table {steps : List Step} {s : String} : s ∈ table steps ↔ ∃ step ∈ steps, step.text? = some s := by
  rw [table, List.mem_eraseDups, List.mem_filterMap]

theorem nodup_table (steps : List Step) : (table steps).Nodup := (firstUses_eraseDups _).nodup

theorem table_append_text (steps : List Step) (number : UInt64) (s : String) :
    table (steps ++ [text number s]) = if s ∈ table steps then table steps else table steps ++ [s] := by
  have last : (steps ++ [text number s]).filterMap text? = steps.filterMap text? ++ [s] := List.filterMap_append
  simp only [table, last, eraseDups_append_singleton, List.mem_eraseDups]

theorem table_append_of_text?_eq_none {steps : List Step} {step : Step} (h : step.text? = none) :
    table (steps ++ [step]) = table steps := by
  unfold table
  rw [List.filterMap_append, List.filterMap_cons_none h, List.filterMap_nil, List.append_nil]

/-- Later steps only add to the table. -/
theorem table_prefix_append (steps more : List Step) : table steps <+: table (steps ++ more) := by
  unfold table
  rw [List.filterMap_append, List.eraseDups_append]
  exact List.prefix_append _ _

/-- A place in a table is the same in every later table. -/
theorem toField_append {table added : List String} {step : Step} (h : ∀ s, step.text? = some s → s ∈ table) :
    step.toField (table ++ added) = step.toField table := by
  cases step with
  | text number s => rw [toField, List.idxOf_append, if_pos (h s rfl), toField]
  | word => rfl
  | field => rfl

/-- The bytes for some steps. -/
def bytes (table : List String) (steps : List Step) : List UInt8 := (steps.map (toField table)).flatMap Field.form

theorem bytes_append_table (steps : List Step) (added : List String) :
    bytes (table steps ++ added) steps = bytes (table steps) steps := by
  unfold bytes
  congr 1
  apply List.map_congr_left
  intro step hstep
  exact toField_append fun s hs => mem_table.2 ⟨step, hstep, hs⟩

theorem bytes_append_singleton (table : List String) (steps : List Step) (step : Step) :
    bytes table (steps ++ [step]) = bytes table steps ++ (step.toField table).form := by
  simp [bytes]

end Step

namespace Composer

open Step

/-- Takes one step. -/
def put (c : Composer) : Step → Composer
  | .text number s => c.text number s
  | .word number flags => c.word number flags
  | .field number value => c.field number value

/-- What a composer holds after some steps. -/
structure Composed (c : Composer) (steps : List Step) : Prop where
  strings : c.strings.toList = table steps
  places : ∀ s : String, c.places[s]? = if s ∈ table steps then some ((table steps).idxOf s) else none
  bytes : c.buffer.toList = Step.bytes (table steps) steps

variable {c : Composer} {steps : List Step}

theorem composed_empty : Composed empty [] where
  strings := rfl
  places s := by simp [empty, table]
  bytes := rfl

theorem toList_field (c : Composer) (number value : UInt64) :
    (c.field number value).buffer.toList = c.buffer.toList ++ Field.form ⟨number, value⟩ := by
  simp [field, Buffer.appendVarint, Field.form]

/-- A step that leaves the table as it is adds its field. -/
private theorem Composed.field {number value : UInt64} {step : Step} (h : Composed c steps)
    (same : table (steps ++ [step]) = table steps) (added : step.toField (table steps) = ⟨number, value⟩) :
    Composed (c.field number value) (steps ++ [step]) where
  strings := h.strings.trans same.symm
  places := by
    rw [same]
    exact h.places
  bytes := by rw [toList_field, h.bytes, same, bytes_append_singleton, added]

/-- A string that is used for the first time goes to the end of the table. -/
private theorem Composed.newText {number : UInt64} {s : String} (h : Composed c steps) (new : s ∉ table steps) :
    Composed (c.text number s) (steps ++ [.text number s]) := by
  have grown : table (steps ++ [.text number s]) = table steps ++ [s] := by
    rw [table_append_text, if_neg new]
  have size : c.strings.size = (table steps).length := by
    rw [← h.strings, Array.length_toList]
  have last : (table steps ++ [s]).idxOf s = (table steps).length := by
    rw [List.idxOf_append, if_neg new, List.idxOf_cons_self, Nat.zero_add]
  unfold Composer.text
  rw [h.places, if_neg new]
  refine ⟨?_, ?_, ?_⟩
  · rw [grown, ← h.strings]
    exact Array.toList_push
  -- The map gains the one new string and keeps all places, which are the same in the longer table.
  · intro t
    show (c.places.insert s c.strings.size)[t]? = _
    rw [grown, Std.HashMap.getElem?_insert, h.places]
    by_cases same : s = t
    · subst same
      rw [if_pos (beq_self_eq_true s), if_pos List.mem_concat_self, last, size]
    · rw [if_neg (by simpa using same)]
      by_cases known : t ∈ table steps
      · rw [if_pos known, if_pos (List.mem_append_left _ known), List.idxOf_append, if_pos known]
      · rw [if_neg known, if_neg]
        rw [List.mem_append, List.mem_singleton]
        exact fun h => h.elim known fun eq => same eq.symm
  · rw [toList_field, grown, bytes_append_singleton, bytes_append_table, toField, last, ← size]
    exact congrArg (· ++ _) h.bytes

/-- Every step keeps what a composer holds. -/
theorem Composed.put (h : Composed c steps) (step : Step) : Composed (c.put step) (steps ++ [step]) := by
  cases step with
  | text number s =>
    by_cases known : s ∈ table steps
    · have again : c.text number s = c.field number (.ofNat ((table steps).idxOf s)) := by
        unfold Composer.text
        rw [h.places, if_pos known]
      rw [Composer.put, again]
      exact h.field (by rw [table_append_text, if_pos known]) rfl
    · exact h.newText known
  | word number flags => exact h.field (table_append_of_text?_eq_none rfl) rfl
  | field number value => exact h.field (table_append_of_text?_eq_none rfl) rfl

theorem Composed.foldl_put (h : Composed c steps) (more : List Step) :
    Composed (more.foldl Composer.put c) (steps ++ more) := by
  induction more generalizing c steps with
  | nil => rwa [List.append_nil]
  | cons step rest ih =>
    rw [← List.singleton_append, ← List.append_assoc]
    exact ih (h.put step)

theorem Composed.finish_eq (h : Composed c steps) (size : Nat) :
    c.finish size = (pack size (Step.bytes (table steps) steps), table steps) := by
  unfold finish
  rw [h.strings, h.bytes]

end Composer

end ClassLedger.Payload
