import ClassLedger.Wire.Source

/-!
# What a source without faults gives

However such a source cuts its bytes and however often it interrupts, a read of a number of bytes gets the next ones
in their order: as many as it wants, or all that are left if those are fewer (`readBytes_of_clean`).
-/

namespace ClassLedger.Wire.Source

variable {s t u : Source} {a b count want : Nat}

/-! ### Going on in the bytes -/

/-- Handing out its next `count` bytes, or all it has left, makes `t` of `s`, and no fault lies ahead. -/
structure Passed (s : Source) (count : Nat) (t : Source) : Prop where
  ending : t.ending = .clean
  unread : t.unread = s.unread.drop count
  position : t.position = s.position + min count s.unread.length

theorem Passed.zero (clean : s.ending = .clean) : s.Passed 0 s where
  ending := clean
  unread := rfl
  position := by omega

theorem Passed.trans (h : s.Passed a t) (h' : t.Passed b u) : s.Passed (a + b) u where
  ending := h'.ending
  unread := by rw [h'.unread, h.unread, List.drop_drop]
  position := by
    rw [h'.position, h.position, h.unread, List.length_drop]
    omega

/-- At the end every number of bytes is passed at once. -/
theorem Passed.of_unread_eq_nil (h : s.Passed a t) (finished : s.unread = []) : s.Passed b t where
  ending := h.ending
  unread := by rw [h.unread, finished, List.drop_nil, List.drop_nil]
  position := by rw [h.position, finished, List.length_nil, Nat.min_zero, Nat.min_zero]

/-! ### Calls -/

/-- A call for `want` bytes may be answered with `count`: nothing is handed out only at the end. -/
structure Fragment (s : Source) (want count : Nat) : Prop where
  le_want : count ≤ want
  le_length : count ≤ s.unread.length
  eq_zero : count = 0 → want = 0 ∨ s.unread = []

theorem call_of_clean (want : Nat) (clean : s.ending = .clean) :
    (∃ t, s.call want = (.interrupted, t) ∧ s.Passed 0 t) ∨
      ∃ count t, s.Fragment want count ∧ s.call want = (.delivered (s.unread.take count), t) ∧ s.Passed count t := by
  unfold call
  by_cases interrupts : s.interrupted < (s.pace s.answered).interruptions
  · rw [if_pos interrupts]
    exact .inl ⟨_, rfl, clean, rfl, by simp⟩
  · rw [if_neg interrupts]
    have size_pos := (s.pace s.answered).size_pos
    simp only [List.splitAt_eq]
    split
    · rename_i failing
      rw [clean] at failing
      cases failing
    · rw [List.take_eq_take_min, List.drop_eq_drop_min]
      refine .inr ⟨_, _, ⟨by omega, Nat.min_le_right _ _, fun nothing => ?_⟩, rfl, clean, rfl, ?_⟩
      · rw [← List.length_eq_zero_iff]
        omega
      · simp only [List.length_take, Nat.min_assoc, Nat.min_self]

theorem fetch_of_interrupted (h : s.call want = (.interrupted, t)) : s.fetch want = t.fetch want := by
  rw [fetch]
  split <;> simp_all

theorem fetch_of_delivered {bytes : List UInt8} (h : s.call want = (.delivered bytes, t)) :
    s.fetch want = (.ok bytes, t) := by
  rw [fetch]
  split <;> simp_all

/-- Interruptions change nothing but their own number, so the first answer is the next fragment. -/
theorem fetch_of_clean (want : Nat) (clean : s.ending = .clean) :
    ∃ count t, s.Fragment want count ∧ s.fetch want = (.ok (s.unread.take count), t) ∧ s.Passed count t := by
  induction pending : s.pending using Nat.strongRecOn generalizing s with
  | ind n ih =>
    obtain ⟨u, called, passed⟩ | ⟨count, t, fragment, called, passed⟩ := call_of_clean want clean
    · obtain ⟨count, t, fragment, fetched, passed'⟩ :=
        ih u.pending (pending ▸ pending_call_lt called) passed.ending rfl
      have unread : u.unread = s.unread := passed.unread
      refine ⟨count, t, ?_, ?_, Nat.zero_add count ▸ passed.trans passed'⟩
      · exact ⟨fragment.le_want, unread ▸ fragment.le_length, unread ▸ fragment.eq_zero⟩
      · rw [fetch_of_interrupted called, fetched, unread]
    · exact ⟨count, t, fragment, fetch_of_delivered called, passed⟩

/-! ### Reads of several bytes -/

theorem gather_of_clean (want : Nat) (got : Array UInt8) (clean : s.ending = .clean) :
    ∃ t, s.gather want got = (.ok (got.toList ++ s.unread.take want), t) ∧ s.Passed want t := by
  induction want using Nat.strongRecOn generalizing got s with
  | ind want ih =>
    rw [gather]
    by_cases enough : want = 0
    · subst enough
      exact ⟨s, by simp, .zero clean⟩
    · rw [if_neg enough]
      obtain ⟨count, t, fragment, fetched, passed⟩ := fetch_of_clean want clean
      have length : (s.unread.take count).length = count := List.length_take_of_le fragment.le_length
      rw [fetched]
      cases bytes : s.unread.take count with
      | nil =>
        have finished : s.unread = [] := (fragment.eq_zero (by rw [← length, bytes]; rfl)).resolve_left enough
        exact ⟨t, by simp [finished], passed.of_unread_eq_nil finished⟩
      | cons byte rest =>
        have total : count + (want - count) = want := Nat.add_sub_cancel' fragment.le_want
        have parts : s.unread.take want = byte :: rest ++ (s.unread.drop count).take (want - count) := by
          rw [← bytes, ← List.take_add, total]
        rw [bytes] at length
        obtain ⟨u, gathered, passed'⟩ :=
          ih (want - count) (by rw [List.length_cons] at length; omega) (got ++ byte :: rest) passed.ending
        refine ⟨u, ?_, total ▸ passed.trans passed'⟩
        simp only [length, gathered, passed.unread, parts, Array.toList_appendList, List.append_assoc]

/-- All bytes that are asked for, or the end of the input after all that are left. -/
theorem readBytes_of_clean (count : Nat) (context : String) (clean : s.ending = .clean) :
    ∃ t, s.Passed count t ∧
      s.readBytes count context =
        if count ≤ s.unread.length then .ok (s.unread.take count) t else .error (.endOfInput context) t := by
  obtain ⟨t, gathered, passed⟩ := gather_of_clean count #[] clean
  have length : (s.unread.take count).length = count ↔ count ≤ s.unread.length := by
    rw [List.length_take]
    omega
  refine ⟨t, passed, ?_⟩
  simp only [readBytes, gathered, List.nil_append, length]

end ClassLedger.Wire.Source
