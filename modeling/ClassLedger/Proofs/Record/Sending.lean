import ClassLedger.Proofs.Record.Form
import ClassLedger.Proofs.Wire.Shortage

/-!
# Records to a sink that runs out of room

Records that are written one after the other, also after a failure, arrive as the beginning of their joined encodings
that there is room for.  A record is reported as written exactly if it has arrived as a whole, and the first one that has
not is reported with the field of the first byte that is missing.
-/

namespace ClassLedger.Record

open Wire

variable {r : Record} {records : List Record} {room j : Nat} {s t : Sink}

/-! ### Fields -/

/-- The bytes of a record field by field. -/
def fields (r : Record) : List Chunk := [
  ⟨"kind", bigEndian r.kind⟩,
  ⟨"version", listForm bigEndian r.version⟩,
  ⟨"data1", listForm stringForm r.payload⟩,
  ⟨"data2", listForm stringForm r.strings⟩,
  ⟨"extra_string", stringForm r.extraText⟩,
  ⟨"package_name", stringForm r.packageName⟩,
  ⟨"extra_int", bigEndian r.extraFlags⟩]

/-- The field that a byte of the form belongs to. -/
def fieldAt? (r : Record) (place : Nat) : Option String := (marks r.fields)[place]?.map (·.1)

/-- The chunks in which a record is written. -/
def chunks (r : Record) : List Chunk :=
  ⟨"kind", bigEndian r.kind⟩ ::
    (listChunks "version" (fun part => [⟨"version", bigEndian part⟩]) r.version ++
    (listChunks "data1" (stringChunks "data1") r.payload ++
    (listChunks "data2" (stringChunks "data2") r.strings ++
    (stringChunks "extra_string" r.extraText ++
    (stringChunks "package_name" r.packageName ++ [⟨"extra_int", bigEndian r.extraFlags⟩])))))

theorem marks_chunks (r : Record) : marks r.chunks = marks r.fields := by
  have part (value : Int32) : marks [⟨"version", bigEndian value⟩] = (bigEndian value).map ("version", ·) := by
    simp [marks_cons]
  simp only [chunks, fields, marks_cons, marks_append, marks_listChunks _ part,
    marks_listChunks _ (marks_stringChunks "data1"), marks_listChunks _ (marks_stringChunks "data2"),
    marks_stringChunks, marks_nil, List.append_nil]

theorem flatMap_bytes_chunks (r : Record) : r.chunks.flatMap Chunk.bytes = r.form := by
  rw [← map_snd_marks, marks_chunks, map_snd_marks]
  simp [fields, form]

theorem length_marks_fields (r : Record) : (marks r.fields).length = r.form.length := by
  rw [← flatMap_bytes_chunks, ← map_snd_marks, marks_chunks, List.length_map]

theorem length_form_pos (r : Record) : 0 < r.form.length := by
  rw [form, List.length_append, length_bigEndian]
  omega

/-- A record whose lengths fit is written in its chunks, whatever the output. -/
theorem write_eq_chunks {σ : Type} [Output σ] (fits : r.Fits) :
    (r.write : Write σ Unit) = writeItems Chunk.write r.chunks := by
  obtain ⟨version, ⟨payload, payloadTexts⟩, ⟨strings, stringsTexts⟩, extraText, packageName⟩ := fits_iff.1 fits
  unfold write chunks
  rw [writeCollection_eq "version" version fun part _ => writeInt32_eq part "version",
    writeCollection_eq "data1" payload fun s hs => writeString_eq "data1" (payloadTexts s hs),
    writeCollection_eq "data2" strings fun s hs => writeString_eq "data2" (stringsTexts s hs),
    writeString_eq _ extraText, writeString_eq _ packageName, writeInt32_eq, writeInt32_eq]
  simp only [← writeItems_append]
  rfl

/-! ### Reports -/

/-- What a write reports, and the output after it. -/
def reported {σ : Type} (result : EStateM.Result EncodeError σ Unit) : Except EncodeError Unit × σ :=
  match result with
  | .ok _ t => (.ok (), t)
  | .error e t => (.error e, t)

/-- Writes records one after the other, also after a failure.  Of each record there is the report and the bytes that the
sink has then, and at the end there is the sink. -/
def writeEach : List Record → Sink → List (Except EncodeError Unit × List UInt8) × Sink
  | [], s => ([], s)
  | r :: rest, s =>
    let (report, t) := reported (r.write s)
    let (reports, last) := writeEach rest t
    ((report, t.accepted.toList) :: reports, last)

/-- The report of a record that has `room` left for it. -/
def reportOf (fault : Fault) (room : Nat) (r : Record) : Except EncodeError Unit :=
  match r.fieldAt? room with
  | none => .ok ()
  | some field => .error (.transport field fault)

theorem write_of_room (fits : r.Fits) (bounded : s.room = some room) :
    ∃ t, s.Took (r.form.take room) t ∧ reported (r.write s) = (reportOf s.fault room r, t) := by
  obtain ⟨t, took, written⟩ := Sink.writeChunks_of_room bounded r.chunks
  rw [flatMap_bytes_chunks] at took
  refine ⟨t, took, ?_⟩
  rw [write_eq_chunks fits, written, marks_chunks, reportOf, fieldAt?]
  cases (marks r.fields)[room]? <;> rfl

private theorem take_min_append (front rest : List UInt8) (room count : Nat) :
    (front ++ rest).take (min room (front.length + count)) =
      front.take room ++ rest.take (min (room - front.length) count) := by
  have behind : min room (front.length + count) - front.length = min (room - front.length) count := by omega
  have before : front.take (min room (front.length + count)) = front.take room := by
    rw [List.take_eq_take_iff]
    omega
  rw [List.take_append, before, behind]

/-- Every record finds the room that those before it have left. -/
theorem writeEach_of_room (fits : ∀ r ∈ records, r.Fits) (bounded : s.room = some room) :
    s.Took ((records.flatMap form).take room) (writeEach records s).2 ∧
    (writeEach records s).1.length = records.length ∧
    ∀ j r, records[j]? = some r →
      (writeEach records s).1[j]? = some (reportOf s.fault (room - ((records.take j).flatMap form).length) r,
        s.accepted.toList ++ (records.flatMap form).take
          (min room (((records.take j).flatMap form).length + r.form.length))) := by
  induction records generalizing s room with
  | nil => exact ⟨by simpa using .nil s, rfl, by simp⟩
  | cons first rest ih =>
    obtain ⟨fitsFirst, fitsRest⟩ := List.forall_mem_cons.1 fits
    obtain ⟨t, took, report⟩ := write_of_room fitsFirst bounded
    have left : t.room = some (room - first.form.length) := by
      rw [took.room_eq bounded, List.length_take]
      congr 1
      omega
    obtain ⟨tookRest, length, reports⟩ := ih fitsRest left
    simp only [writeEach, report, List.flatMap_cons]
    refine ⟨?_, by rw [List.length_cons, length, List.length_cons], ?_⟩
    · rw [List.take_append]
      exact took.trans tookRest
    · rintro (_ | j) r found
      · obtain rfl : first = r := by simpa using found
        simp only [List.take_zero, List.flatMap_nil, List.length_nil, Nat.zero_add, Nat.sub_zero,
          List.getElem?_cons_zero, took.accepted]
        rw [List.take_append_of_le_length (Nat.min_le_right _ _), List.take_eq_take_min]
      · rw [List.getElem?_cons_succ] at found
        simp only [List.take_succ_cons, List.flatMap_cons, List.length_append, List.getElem?_cons_succ,
          reports j r found, took.fault, took.accepted, Nat.add_assoc, take_min_append, List.append_assoc, Nat.sub_sub]

theorem reportOf_of_le {fault : Fault} (fits : r.form.length ≤ room) : reportOf fault room r = .ok () := by
  rw [← length_marks_fields] at fits
  rw [reportOf, fieldAt?, List.getElem?_eq_none fits]
  rfl

theorem reportOf_of_lt (fault : Fault) (short : room < r.form.length) :
    ∃ field, r.fieldAt? room = some field ∧ reportOf fault room r = .error (.transport field fault) := by
  rw [← length_marks_fields] at short
  have field : r.fieldAt? room = some (marks r.fields)[room].1 := by
    rw [fieldAt?, List.getElem?_eq_getElem short, Option.map_some]
  exact ⟨_, field, by rw [reportOf, field]⟩

/-- Of records that can be encoded a sink with a bounded room holds at the end as much of their joined encodings as there
is room for, and all of it, as it is written to memory, if there is enough.  The record at index `j` is reported as
written exactly if the encodings up to and with it fit.  The first one that does not is reported with the field of the
first byte that was not taken, and every later one with its first field, while the sink stays as it is. -/
theorem writeEach_sink (records : List Record) (encodings : List (List UInt8))
    (encoded : records.map encode = encodings.map .ok) (room : Nat) (refusal : Option Fault) (pace : Nat → Pace) :
    let sink : Sink := { room := some room, refusal, pace }
    let reports := (writeEach records sink).1
    let held := (writeEach records sink).2.accepted.toList
    let start := fun j => (encodings.take j).flatten.length
    held = encodings.flatten.take room ∧
    (encodings.flatten.length ≤ room → written (writeItems write records) = .ok held) ∧
    reports.length = records.length ∧
    ∀ j r, records[j]? = some r → ∃ report,
      reports[j]? = some (report, encodings.flatten.take (min room (start (j + 1)))) ∧
      (report = .ok () ↔ start (j + 1) ≤ room) ∧
      (start j ≤ room → room < start (j + 1) → ∃ field, r.fieldAt? (room - start j) = some field ∧
        report = .error (.transport field (refusal.getD .nothingTaken))) ∧
      (room < start j → report = .error (.transport "kind" (refusal.getD .nothingTaken))) := by
  intro sink reports held start
  obtain ⟨rfl, fits⟩ := map_encode_eq_ok encoded
  obtain ⟨took, length, each⟩ := writeEach_of_room (s := sink) fits rfl
  have heldEq : held = (records.map form).flatten.take room := by
    rw [← List.flatMap_def]
    exact took.accepted
  refine ⟨heldEq, ?_, length, ?_⟩
  · intro enough
    rw [heldEq, List.take_of_length_le enough, ← List.flatMap_def]
    exact (written_eq_ok_iff (writes_items writes records)).2 ⟨fits, rfl⟩
  · intro j r found
    have start_eq : start j = ((records.take j).flatMap form).length := by
      rw [List.flatMap_def, List.map_take]
    have start_succ : start (j + 1) = start j + r.form.length := by
      obtain ⟨less, rfl⟩ := List.getElem?_eq_some_iff.1 found
      show ((records.map form).take (j + 1)).flatten.length = ((records.map form).take j).flatten.length + _
      rw [List.take_succ_eq_append_getElem (by simpa using less)]
      simp
    have nonempty := r.length_form_pos
    have report := each j r found
    rw [← start_eq, ← start_succ, List.flatMap_def] at report
    refine ⟨_, report, ⟨?_, fun fit => reportOf_of_le (by omega)⟩, ?_, ?_⟩
    · intro ok
      refine Nat.not_lt.1 fun beyond => ?_
      have short : room - start j < r.form.length := by omega
      obtain ⟨field, -, failed⟩ := reportOf_of_lt sink.fault short
      rw [failed] at ok
      cases ok
    · intro _ short
      exact reportOf_of_lt sink.fault (by omega)
    · intro late
      rw [Nat.sub_eq_zero_of_le (Nat.le_of_lt late)]
      rfl

/-- The room ends behind an empty package name, so the number after it is the first to be missing. -/
theorem writeEach_sink_empty_name :
    let records : List Record := [{}, {}]
    let encodings := [form {}, form {}]
    let sink : Sink := { room := some 24, pace := fun _ => ⟨1, 3, by decide⟩ }
    records.map encode = encodings.map .ok ∧
    (writeEach records sink).2.accepted.toList = List.replicate 24 0 ∧
    (writeEach records sink).1 = [
      (.error (.transport "extra_int" .nothingTaken), List.replicate 24 0),
      (.error (.transport "kind" .nothingTaken), List.replicate 24 0)] := by
  intro records encodings sink
  have encoded : records.map encode = encodings.map .ok := rfl
  obtain ⟨held, -, length, each⟩ := writeEach_sink records encodings encoded 24 none fun _ => ⟨1, 3, by decide⟩
  obtain ⟨report, first, -, short, -⟩ := each 0 {} rfl
  obtain ⟨report', second, -, -, late⟩ := each 1 {} rfl
  obtain ⟨field, named, rfl⟩ := short (by decide) (by decide)
  obtain rfl := late (by decide)
  obtain rfl : "extra_int" = field := Option.some.inj named
  refine ⟨encoded, held, List.ext_getElem? fun j => ?_⟩
  match j with
  | 0 => exact first
  | 1 => exact second
  | j + 2 => rw [List.getElem?_eq_none (by rw [length]; exact Nat.le_add_left 2 j)]; rfl

end ClassLedger.Record
