import ClassLedger.Proofs.Wire.Chunks
import ClassLedger.Proofs.Wire.Reading
import ClassLedger.Wire.Sink

/-!
# Sinks that run out of room

A sink with a bounded room takes what is written until the room is used up, however it cuts the bytes and however often
it interrupts.  The write that does not fit fails with the fault of the sink for the field of the first byte that was
not taken (`writeChunks_of_room`).  A write of no bytes makes no call, so it succeeds also without room.
-/

namespace ClassLedger.Wire.Sink

variable {s t u : Sink} {room : Nat} {a b bytes : List UInt8}

/-- What the sink reports without room. -/
def fault (s : Sink) : Fault := s.refusal.getD .nothingTaken

/-- Taking some bytes makes `t` of `s`. -/
structure Took (s : Sink) (bytes : List UInt8) (t : Sink) : Prop where
  accepted : t.accepted.toList = s.accepted.toList ++ bytes
  room : t.room = s.room.map (· - bytes.length)
  refusal : t.refusal = s.refusal

theorem Took.nil (s : Sink) : s.Took [] s where
  accepted := (List.append_nil _).symm
  room := by cases h : s.room <;> simp
  refusal := rfl

theorem Took.trans (h : s.Took a t) (h' : t.Took b u) : s.Took (a ++ b) u where
  accepted := by rw [h'.accepted, h.accepted, List.append_assoc]
  room := by
    rw [h'.room, h.room, Option.map_map, List.length_append]
    exact congrArg (Option.map · s.room) (funext fun n => Nat.sub_sub n _ _)
  refusal := h'.refusal.trans h.refusal

theorem Took.fault (h : s.Took a t) : t.fault = s.fault := by rw [Sink.fault, Sink.fault, h.refusal]

theorem Took.room_eq (h : s.Took a t) (bounded : s.room = some room) : t.room = some (room - a.length) := by
  rw [h.room, bounded, Option.map_some]

/-! ### Calls -/

theorem call_of_full (full : s.room = some 0) (bytes : List UInt8) :
    ∃ t, (s.call bytes = (.interrupted, t) ∨
      s.call bytes = (match s.refusal with | some fault => .failed fault | none => .taken 0, t)) ∧ s.Took [] t := by
  obtain ⟨accepted, room, refusal, flushFault, pace, answered, interrupted⟩ := s
  obtain rfl : room = some 0 := full
  unfold call
  dsimp only
  split
  · exact ⟨_, .inl rfl, (List.append_nil _).symm, rfl, rfl⟩
  · cases refusal with
    | some fault => exact ⟨_, .inr rfl, (List.append_nil _).symm, rfl, rfl⟩
    | none =>
      simp only [Option.getD_some, Nat.min_zero, List.take_zero]
      exact ⟨_, .inr rfl, by simp, by simp, rfl⟩

theorem call_of_room (bounded : s.room = some room) (left : room ≠ 0) (nonempty : bytes ≠ []) :
    (∃ t, s.call bytes = (.interrupted, t) ∧ s.Took [] t) ∨
      ∃ count t, 0 < count ∧ count ≤ bytes.length ∧ count ≤ room ∧ s.call bytes = (.taken count, t) ∧
        s.Took (bytes.take count) t := by
  have size_pos := (s.pace s.answered).size_pos
  have length_pos := List.length_pos_iff.2 nonempty
  unfold call
  dsimp only
  split
  · exact .inl ⟨_, rfl, (List.append_nil _).symm, by simp, rfl⟩
  · split
    · simp_all
    · simp only [bounded, Option.getD_some, Option.map_some]
      have length : (bytes.take (min (s.pace s.answered).size room)).length =
          min (min (s.pace s.answered).size room) bytes.length := List.length_take
      refine .inr ⟨_, _, ?_, ?_, ?_, rfl, ?_, ?_, rfl⟩
      · omega
      · omega
      · omega
      · rw [length, ← List.take_eq_take_min, Array.toList_appendList]
      · rw [bounded, length, ← List.take_eq_take_min, Option.map_some, length]

theorem offer_of_interrupted (h : s.call bytes = (.interrupted, t)) : s.offer bytes = t.offer bytes := by
  rw [offer]
  split <;> simp_all

theorem offer_of_taken {count : Nat} (h : s.call bytes = (.taken count, t)) : s.offer bytes = (.ok count, t) := by
  rw [offer]
  split <;> simp_all

theorem offer_of_failed {fault : Fault} (h : s.call bytes = (.failed fault, t)) :
    s.offer bytes = (.error fault, t) := by
  rw [offer]
  split <;> simp_all

theorem offer_of_full (full : s.room = some 0) (bytes : List UInt8) :
    ∃ t, s.offer bytes = (match s.refusal with | some fault => .error fault | none => .ok 0, t) ∧ s.Took [] t := by
  induction pending : s.pending using Nat.strongRecOn generalizing s with
  | ind n ih =>
    obtain ⟨t, called | called, took⟩ := call_of_full full bytes
    · obtain ⟨u, offered, took'⟩ := ih t.pending (pending ▸ pending_call_lt called) (took.room_eq full) rfl
      refine ⟨u, ?_, took.trans took'⟩
      rw [offer_of_interrupted called, offered, took.refusal]
    · refine ⟨t, ?_, took⟩
      cases refusal : s.refusal with
      | some fault => exact offer_of_failed (by rw [called, refusal])
      | none => exact offer_of_taken (by rw [called, refusal])

theorem offer_of_room (bounded : s.room = some room) (left : room ≠ 0) (nonempty : bytes ≠ []) :
    ∃ count t, 0 < count ∧ count ≤ bytes.length ∧ count ≤ room ∧ s.offer bytes = (.ok count, t) ∧
      s.Took (bytes.take count) t := by
  induction pending : s.pending using Nat.strongRecOn generalizing s with
  | ind n ih =>
    obtain ⟨t, called, took⟩ | ⟨count, t, pos, le, fits, called, took⟩ := call_of_room bounded left nonempty
    · obtain ⟨count, u, pos, le, fits, offered, took'⟩ :=
        ih t.pending (pending ▸ pending_call_lt called) (took.room_eq bounded) rfl
      exact ⟨count, u, pos, le, fits, by rw [offer_of_interrupted called, offered], took.trans took'⟩
    · exact ⟨count, t, pos, le, fits, offer_of_taken called, took⟩

/-! ### Writes -/

/-- As many bytes as there is room for are taken, and the write fails if that is not all of them. -/
theorem deliver_of_room (bounded : s.room = some room) (field : String) (bytes : List UInt8) :
    ∃ t, s.Took (bytes.take room) t ∧
      s.deliver field bytes = if bytes.length ≤ room then .ok () t else .error (.transport field s.fault) t := by
  induction length : bytes.length using Nat.strongRecOn generalizing bytes s room with
  | ind n ih =>
    cases bytes with
    | nil =>
      obtain rfl : 0 = n := length
      rw [deliver, List.take_nil]
      exact ⟨s, .nil s, rfl⟩
    | cons b rest =>
      rw [deliver]
      by_cases full : room = 0
      · subst full
        obtain ⟨t, offered, took⟩ := offer_of_full bounded (b :: rest)
        refine ⟨t, took, ?_⟩
        rw [offered, if_neg (by rw [← length, List.length_cons]; omega), fault]
        cases s.refusal <;> rfl
      · obtain ⟨count, t, pos, le, fits, offered, took⟩ := offer_of_room bounded full (List.cons_ne_nil b rest)
        obtain ⟨count, rfl⟩ := Nat.exists_eq_add_one_of_ne_zero (Nat.pos_iff_ne_zero.1 pos)
        have room_eq := took.room_eq bounded
        rw [List.length_take_of_le le] at room_eq
        rw [List.length_cons] at length le
        obtain ⟨u, took', delivered⟩ := ih _ (by rw [List.length_drop]; omega) room_eq (rest.drop count) rfl
        refine ⟨u, ?_, ?_⟩
        · have parts := took.trans took'
          rwa [show rest.drop count = (b :: rest).drop (count + 1) from rfl, ← List.take_add,
            Nat.add_sub_cancel' fits] at parts
        · rw [offered]
          dsimp only
          rw [delivered, took.fault, List.length_drop]
          simp only [show rest.length - count ≤ room - (count + 1) ↔ n ≤ room by omega]

/-- Chunks are taken up to the room.  The field of the first byte beyond it is that of the failure. -/
theorem writeChunks_of_room (bounded : s.room = some room) (chunks : List Chunk) :
    ∃ t, s.Took ((chunks.flatMap Chunk.bytes).take room) t ∧
      writeItems Chunk.write chunks s =
        match (marks chunks)[room]? with
        | none => .ok () t
        | some (field, _) => .error (.transport field s.fault) t := by
  induction chunks generalizing s room with
  | nil => exact ⟨s, by simpa using .nil s, rfl⟩
  | cons c rest ih =>
    obtain ⟨t, took, (delivered : c.write s = _)⟩ := deliver_of_room bounded c.field c.bytes
    rw [List.flatMap_cons, marks_cons, writeItems]
    by_cases fits : c.bytes.length ≤ room
    · rw [if_pos fits] at delivered
      rw [List.take_of_length_le fits] at took
      obtain ⟨u, took', others⟩ := ih (took.room_eq bounded)
      refine ⟨u, ?_, ?_⟩
      · rw [List.take_append, List.take_of_length_le fits]
        exact took.trans took'
      · rw [List.getElem?_append_right (by simpa using fits), List.length_map, ← took.fault, bind_of_eq_ok delivered]
        exact others
    · rw [if_neg fits] at delivered
      have beyond := Nat.not_le.1 fits
      refine ⟨t, ?_, ?_⟩
      · rwa [List.take_append_of_le_length (Nat.le_of_lt beyond)]
      · rw [List.getElem?_append_left (by simpa using beyond), bind_of_eq_error delivered]
        simp [beyond]

end ClassLedger.Wire.Sink
