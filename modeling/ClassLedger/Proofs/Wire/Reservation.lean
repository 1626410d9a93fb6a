import ClassLedger.Proofs.Wire.Chunks
import ClassLedger.Wire.Reserve

/-!
# Reserved memory that suffices

A buffer takes all that is written, whatever was reserved for it.  It is moved exactly if its bytes come to more than
that: the memory that chunks need is that of all their bytes, however they are cut (`write_chunks`).
-/

namespace ClassLedger.Wire.Reserve

variable {v u w : Reserve} {a b : List UInt8}

/-- Some more bytes make `u` of `v`, without a move exactly if they fit. -/
structure Received (v : Reserve) (bytes : List UInt8) (u : Reserve) : Prop where
  toList : u.buffer.toList = v.buffer.toList ++ bytes
  stays : v.buffer.size + bytes.length ≤ v.capacity → u.moves = v.moves ∧ u.capacity = v.capacity
  moved : v.capacity < v.buffer.size + bytes.length → v.moves < u.moves

theorem Received.size (h : v.Received a u) : u.buffer.size = v.buffer.size + a.length := by
  rw [← Buffer.length_toList, h.toList, List.length_append, Buffer.length_toList]

theorem Received.moves_le (h : v.Received a u) : v.moves ≤ u.moves := by
  by_cases fits : v.buffer.size + a.length ≤ v.capacity
  · exact Nat.le_of_eq (h.stays fits).1.symm
  · exact Nat.le_of_lt (h.moved (Nat.not_le.1 fits))

theorem Received.nil (v : Reserve) : v.Received [] v where
  toList := (List.append_nil _).symm
  stays _ := ⟨rfl, rfl⟩
  moved beyond := absurd v.fits (Nat.not_le.2 beyond)

theorem Received.trans (h : v.Received a u) (h' : u.Received b w) : v.Received (a ++ b) w where
  toList := by rw [h'.toList, h.toList, List.append_assoc]
  stays fits := by
    rw [List.length_append] at fits
    obtain ⟨moves, capacity⟩ := h.stays (by omega)
    obtain ⟨moves', capacity'⟩ := h'.stays (by rw [h.size, capacity]; omega)
    exact ⟨moves'.trans moves, capacity'.trans capacity⟩
  moved beyond := by
    rw [List.length_append] at beyond
    -- Either the first bytes do not fit, or they leave the memory as it was and the others do not fit.
    by_cases fits : v.buffer.size + a.length ≤ v.capacity
    · obtain ⟨moves, capacity⟩ := h.stays fits
      rw [← moves]
      exact h'.moved (by rw [h.size, capacity]; omega)
    · exact Nat.lt_of_lt_of_le (h.moved (Nat.not_le.1 fits)) h'.moves_le

theorem received_append (v : Reserve) (bytes : List UInt8) : v.Received bytes (v.append bytes) := by
  have size := v.buffer.size_append bytes
  unfold append
  dsimp only
  by_cases fits : v.buffer.size + bytes.length ≤ v.capacity
  · rw [dif_pos (by rwa [size])]
    exact ⟨Buffer.toList_append .., fun _ => ⟨rfl, rfl⟩, fun beyond => absurd fits (Nat.not_le.2 beyond)⟩
  · rw [dif_neg (by rwa [size])]
    exact ⟨Buffer.toList_append .., fun fits' => absurd fits' fits, fun _ => Nat.lt_succ_self _⟩

/-- All bytes of the chunks are taken. -/
theorem write_chunks (chunks : List Chunk) (v : Reserve) :
    ∃ u, v.Received (chunks.flatMap Chunk.bytes) u ∧ writeItems Chunk.write chunks v = .ok () u := by
  induction chunks generalizing v with
  | nil => exact ⟨v, .nil v, rfl⟩
  | cons c rest ih =>
    obtain ⟨u, received, written⟩ := ih (v.append c.bytes)
    exact ⟨u, (v.received_append c.bytes).trans received, written⟩

end ClassLedger.Wire.Reserve
