import ClassLedger.Proofs.Wire.Form
import ClassLedger.Wire.Output

/-!
# Writes as chunks

Whatever the output, to write a value is to write some byte strings one after the other, each for a field (`Chunk`), as
long as all lengths fit four bytes.  The output alone decides what becomes of them.  Read byte by byte, the chunks say
of every byte which field it belongs to (`marks`), and two ways of cutting the same marked bytes into chunks do not
differ.
-/

namespace ClassLedger.Wire

/-- Some bytes of a field. -/
structure Chunk where
  field : String
  bytes : List UInt8

variable {σ α : Type}

theorem writeItems_append (item : α → Write σ Unit) (xs ys : List α) :
    writeItems item (xs ++ ys) = (do writeItems item xs; writeItems item ys) := by
  induction xs with
  | nil => simp [writeItems]
  | cons x rest ih => simp [writeItems, ih]

variable [Output σ]

def Chunk.write (c : Chunk) : Write σ Unit := Output.writeBytes c.bytes c.field

/-- The bytes of some chunks, each with the field it belongs to. -/
def marks (chunks : List Chunk) : List (String × UInt8) :=
  chunks.flatMap fun c => c.bytes.map (c.field, ·)

@[simp]
theorem marks_nil : marks [] = [] := rfl

theorem marks_cons (c : Chunk) (rest : List Chunk) : marks (c :: rest) = c.bytes.map (c.field, ·) ++ marks rest :=
  List.flatMap_cons

theorem marks_append (chunks chunks' : List Chunk) : marks (chunks ++ chunks') = marks chunks ++ marks chunks' :=
  List.flatMap_append

theorem map_snd_marks (chunks : List Chunk) : (marks chunks).map (·.2) = chunks.flatMap Chunk.bytes := by
  induction chunks with
  | nil => rfl
  | cons c rest ih =>
    rw [marks_cons, List.map_append, ih, List.map_map, List.flatMap_cons]
    exact congrArg (· ++ _) (List.map_id _)

/-- Chunks of one field are marked like one chunk of all their bytes. -/
theorem marks_flatMap (field : String) (form : α → List UInt8) (chunks : α → List Chunk) (items : List α)
    (h : ∀ x, marks (chunks x) = (form x).map (field, ·)) :
    marks (items.flatMap chunks) = (items.flatMap form).map (field, ·) := by
  induction items with
  | nil => rfl
  | cons x rest ih => rw [List.flatMap_cons, marks_append, h, ih, List.flatMap_cons, List.map_append]

/-! ### Sequences of writes -/

theorem writeItems_eq_chunks {item : α → Write σ Unit} {chunks : α → List Chunk} (items : List α)
    (h : ∀ x ∈ items, item x = writeItems Chunk.write (chunks x)) :
    writeItems item items = writeItems Chunk.write (items.flatMap chunks) := by
  induction items with
  | nil => rfl
  | cons x rest ih =>
    obtain ⟨first, others⟩ := List.forall_mem_cons.1 h
    rw [List.flatMap_cons, writeItems_append, writeItems, first, ih others]

/-! ### Values as chunks -/

/-- The chunks of a string. -/
def stringChunks (field : String) (s : String) : List Chunk :=
  [⟨field, lengthForm s.utf8ByteSize⟩, ⟨field, Text.utf8 s⟩]

/-- The chunks of a collection, from those of its items. -/
def listChunks (field : String) (chunks : α → List Chunk) (items : List α) : List Chunk :=
  ⟨field, lengthForm items.length⟩ :: items.flatMap chunks

theorem marks_stringChunks (field : String) (s : String) :
    marks (stringChunks field s) = (stringForm s).map (field, ·) := by
  simp [stringChunks, stringForm, marks_cons]

theorem marks_listChunks {field : String} {form : α → List UInt8} {chunks : α → List Chunk} (items : List α)
    (h : ∀ x, marks (chunks x) = (form x).map (field, ·)) :
    marks (listChunks field chunks items) = (listForm form items).map (field, ·) := by
  rw [listChunks, marks_cons, marks_flatMap field form chunks items h, listForm, List.map_append]

theorem writeInt32_eq (value : Int32) (field : String) :
    (writeInt32 value field : Write σ Unit) = writeItems Chunk.write [⟨field, bigEndian value⟩] := by
  simp [writeItems, writeInt32, Chunk.write]

theorem writeLength_eq {length : Nat} (field : String) (fits : length ≤ Limits.prefixValue) :
    (writeLength length Limits.prefixValue field : Write σ Unit) =
      writeItems Chunk.write [⟨field, lengthForm length⟩] := by
  unfold writeLength
  rw [Nat.min_self]
  exact (if_neg (Nat.not_lt.2 fits)).trans (writeInt32_eq _ _)

theorem writeString_eq {s : String} (field : String) (fits : s.utf8ByteSize ≤ Limits.prefixValue) :
    (writeString s field : Write σ Unit) = writeItems Chunk.write (stringChunks field s) := by
  unfold writeString
  rw [← Text.length_utf8] at fits
  dsimp only
  rw [writeLength_eq field fits]
  simp [writeItems, stringChunks, Chunk.write, Text.length_utf8]

theorem writeCollection_eq {item : α → Write σ Unit} {chunks : α → List Chunk} {items : List α} (field : String)
    (fits : items.length ≤ Limits.prefixValue) (h : ∀ x ∈ items, item x = writeItems Chunk.write (chunks x)) :
    writeCollection items Limits.prefixValue field item = writeItems Chunk.write (listChunks field chunks items) := by
  unfold writeCollection
  rw [writeLength_eq field fits, writeItems_eq_chunks items h, ← writeItems_append]
  rfl

end ClassLedger.Wire
