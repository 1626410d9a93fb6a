import ClassLedger.Proofs.Wire.Agreement

/-!
# Sources that break off

A source may report a fault where its bytes are used up.  Until then it is like a source that simply ends there: a read
that the other one completes is completed with the same bytes, and a read that runs into the end meets the fault, with
all bytes used up (`readBytes_failing`).  A read for no bytes makes no call, so it never meets the fault.
-/

namespace ClassLedger.Wire

namespace Source

variable {s t : Source} {fault : Fault} {want count : Nat}

/-- The source with a fault in the place of its end. -/
def failing (fault : Fault) (s : Source) : Source := { s with ending := .failing fault }

theorem call_failing (clean : s.ending = .clean) :
    (s.failing fault).call want =
      match s.call want with
      | (.delivered bytes, t) => (if s.unread = [] then .failed fault else .delivered bytes, t.failing fault)
      | (supply, t) => (supply, t.failing fault) := by
  unfold call failing
  dsimp only
  rw [clean]
  split
  · rfl
  · cases left : s.unread <;> simp

theorem fetch_of_failed (h : s.call want = (.failed fault, t)) : s.fetch want = (.error fault, t) := by
  rw [fetch]
  split <;> simp_all

/-- However often it is interrupted, the fault comes where a source that ends would deliver nothing. -/
theorem fetch_failing (clean : s.ending = .clean) :
    (s.failing fault).fetch want =
      (if s.unread = [] then .error fault else (s.fetch want).1, (s.fetch want).2.failing fault) := by
  induction pending : s.pending using Nat.strongRecOn generalizing s with
  | ind n ih =>
    have called' : (s.failing fault).call want = _ := call_failing clean
    obtain ⟨t, called, passed⟩ | ⟨count, t, -, called, -⟩ := call_of_clean want clean
    · rw [called] at called'
      rw [fetch_of_interrupted called, fetch_of_interrupted called',
        ih t.pending (pending ▸ pending_call_lt called) passed.ending rfl, show t.unread = s.unread from passed.unread]
    · rw [called] at called'
      rw [fetch_of_delivered called]
      by_cases finished : s.unread = []
      · simp only [finished, ↓reduceIte] at called' ⊢
        exact fetch_of_failed called'
      · simp only [finished, ↓reduceIte] at called' ⊢
        exact fetch_of_delivered called'

/-! ### Reads of several bytes -/

theorem gather_failing (got : Array UInt8) (clean : s.ending = .clean) :
    (s.failing fault).gather want got =
      (if want ≤ s.unread.length then (s.gather want got).1 else .error fault, (s.gather want got).2.failing fault) := by
  induction want using Nat.strongRecOn generalizing got s with
  | ind want ih =>
    rw [gather, gather]
    by_cases enough : want = 0
    · simp [enough]
    · obtain ⟨count, t, fragment, fetched, passed⟩ := fetch_of_clean want clean
      rw [if_neg enough, if_neg enough, fetch_failing clean, fetched]
      by_cases finished : s.unread = []
      · simp [finished, enough]
      · -- some bytes come, and the rest is gathered by both sources
        have some : count ≠ 0 := fun none => (fragment.eq_zero none).elim enough finished
        have le := fragment.le_length
        have length : (s.unread.take count).length = count := List.length_take_of_le le
        cases bytes : s.unread.take count with
        | nil => simp [bytes] at length; omega
        | cons byte rest =>
          rw [bytes] at length
          have left : t.unread.length = s.unread.length - count := by rw [passed.unread, List.length_drop]
          have := fragment.le_want
          simp only [finished, ↓reduceIte, length]
          rw [ih (want - count) (by omega) _ passed.ending, left]
          simp only [show want - count ≤ s.unread.length - count ↔ want ≤ s.unread.length by omega]

/-- All bytes that are asked for, or the fault after all that are left. -/
theorem readBytes_failing (fault : Fault) (count : Nat) (context : String) (clean : s.ending = .clean) :
    ∃ t, s.Passed count t ∧
      (s.failing fault).readBytes count context =
        if count ≤ s.unread.length then .ok (s.unread.take count) (t.failing fault)
        else .error (.ofFault context fault) (t.failing fault) := by
  obtain ⟨t, gathered, passed⟩ := gather_of_clean count #[] clean
  refine ⟨t, passed, ?_⟩
  unfold readBytes
  rw [gather_failing #[] clean, gathered]
  by_cases enough : count ≤ s.unread.length
  · simp [enough]
  · simp [enough]

end Source

/-! ### Next to a slice -/

/-- A source that breaks off after the bytes of a slice, `total` in all, next to that slice: where the slice has ended,
the source has met its fault. -/
def cutOff (fault : Fault) (total : Nat) : Pairing Source Slice where
  level s t := ∃ u, SamePlace total u t ∧ s = u.failing fault
  ended e s e' _ := ∃ context, e' = .endOfInput context ∧ e = .ofFault context fault ∧ s.position = total

theorem readsAlike_cutOff (fault : Fault) (total : Nat) : (cutOff fault total).ReadsAlike := by
  refine Pairing.readsAlike_of_bytes fun count context s t level => ?_
  obtain ⟨u, same, rfl⟩ := level
  obtain ⟨v, passed, read⟩ := Source.readBytes_failing fault count context same.ending
  have total_eq := same.total_eq
  rw [read, Slice.readBytes_eq, ← same.unread]
  by_cases enough : count ≤ u.unread.length
  · rw [if_pos enough, if_pos enough]
    refine .ok _ ⟨v, ⟨passed.ending, passed.unread, ?_, ?_⟩, rfl⟩
    · rw [passed.position, same.position, Nat.min_eq_left enough]
    · rw [passed.position, passed.unread, List.length_drop]
      omega
  · rw [if_neg enough, if_neg enough]
    refine .ended ⟨context, rfl, rfl, ?_⟩
    show v.position = total
    rw [passed.position]
    omega

end ClassLedger.Wire
