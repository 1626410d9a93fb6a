import ClassLedger.Proofs.Wire.Pairing
import ClassLedger.Proofs.Wire.Reading
import ClassLedger.Wire.Varint

/-!
# Reads of longer byte strings

A read that does not meet the end of its bytes never learns what stands behind them: with more bytes there it gives the
same value or the same refusal and stops at the same place (`Settled`).  Lengths decide how far a read goes, so this has
to hold for every read between two lengths; it is enough to know it of integers and of texts.
-/

namespace ClassLedger

theorem DecodeError.isEnd_iff {e : DecodeError} : e.isEnd ↔ ∃ context, e = .endOfInput context := by
  cases e <;> simp [isEnd]

namespace Wire

/-- The slice with more bytes behind it. -/
def Slice.followedBy (s : Slice) (more : List UInt8) : Slice := { s with rest := s.rest ++ more }

theorem Slice.ofList_append (bytes more : List UInt8) : ofList (bytes ++ more) = (ofList bytes).followedBy more := rfl

/-- More bytes change nothing, unless the read has met the end of those that were there. -/
structure Settled {α : Type} (read : Read Slice α) : Prop where
  ok : ∀ {s t : Slice} {x : α}, read s = .ok x t → ∀ more, read (s.followedBy more) = .ok x (t.followedBy more)
  refused : ∀ {s t : Slice} {e : DecodeError}, read s = .error e t → e.isEnd = false →
    ∀ more, read (s.followedBy more) = .error e (t.followedBy more)

section

variable {α β : Type} {read : Read Slice α} {next : α → Read Slice β}

/-- A read that goes beyond the bytes of a slice meets their end where no others stand behind them. -/
theorem Settled.meets_end {s t : Slice} {x : α} {more : List UInt8} (h : Settled read)
    (whole : read (s.followedBy more) = .ok x t) (beyond : t.rest.length < more.length) :
    ∃ context u, read s = .error (.endOfInput context) u := by
  cases result : read s with
  | ok y u =>
    rw [h.ok result more] at whole
    obtain ⟨-, rfl⟩ := EStateM.Result.ok.inj whole
    simp only [Slice.followedBy, List.length_append] at beyond
    omega
  | error e u =>
    cases atEnd : e.isEnd with
    | true =>
      obtain ⟨context, rfl⟩ := DecodeError.isEnd_iff.1 atEnd
      exact ⟨context, u, rfl⟩
    | false =>
      rw [h.refused result atEnd more] at whole
      cases whole

theorem settled_pure (x : α) : Settled (pure x) where
  ok h more := by
    obtain ⟨rfl, rfl⟩ := EStateM.Result.ok.inj h
    rfl
  refused h := nomatch h

theorem settled_throw (e : DecodeError) : Settled (throw e : Read Slice α) where
  ok h := nomatch h
  refused h _ more := by
    obtain ⟨rfl, rfl⟩ := EStateM.Result.error.inj h
    rfl

theorem Settled.bind (h : Settled read) (h' : ∀ x, Settled (next x)) : Settled (read >>= next) where
  ok {s t y} result more := by
    obtain ⟨x, u, first, second⟩ := bind_eq_ok_iff.1 result
    rw [bind_of_eq_ok (h.ok first more)]
    exact (h' x).ok second more
  refused {s t e} result notEnd more := by
    cases first : read s with
    | ok x u =>
      rw [bind_of_eq_ok first] at result
      rw [bind_of_eq_ok (h.ok first more)]
      exact (h' x).refused result notEnd more
    | error e' u =>
      rw [bind_of_eq_error first] at result
      obtain ⟨rfl, rfl⟩ := EStateM.Result.error.inj result
      exact bind_of_eq_error (h.refused first notEnd more)

theorem Settled.items (h : Settled read) (count : Nat) (before : List α) : Settled (readItems read count before) := by
  induction count generalizing before with
  | zero => exact settled_pure before.reverse
  | succ count ih => exact h.bind fun x => ih (x :: before)

theorem settled_readBytes (count : Nat) (context : String) : Settled (Slice.readBytes count context) where
  ok {s t bytes} h more := by
    obtain ⟨length, ahead, position⟩ := readBytes_eq_ok_iff.1 h
    refine readBytes_eq_ok_iff.2 ⟨length, ?_, position⟩
    show s.rest ++ more = bytes ++ (t.rest ++ more)
    rw [ahead, List.append_assoc]
  refused {s t e} h notEnd more := by
    -- the only error of this read is the end itself
    rw [Slice.readBytes_eq] at h
    split at h
    · cases h
    · obtain ⟨rfl, -⟩ := EStateM.Result.error.inj h
      cases notEnd

theorem settled_readByte (context : String) : Settled (Slice.readByte context) where
  ok {s t b} h more := by
    unfold Slice.readByte at h ⊢
    split at h
    · cases h
    · rename_i first rest bytes
      obtain ⟨rfl, rfl⟩ := EStateM.Result.ok.inj h
      simp [Slice.followedBy, bytes]
  refused {s t e} h notEnd more := by
    unfold Slice.readByte at h
    split at h
    · obtain ⟨rfl, -⟩ := EStateM.Result.error.inj h
      cases notEnd
    · cases h

theorem settled_readDigits (context : String) (left weight sum : Nat) :
    Settled (Slice.readDigits context left weight sum) := by
  induction left generalizing weight sum with
  | zero => exact settled_throw _
  | succ left ih =>
    refine (settled_readByte context).bind fun byte => ?_
    dsimp only
    split
    · exact settled_throw _
    · split
      · exact settled_pure _
      · exact ih _ _

theorem settled_varint (context : String) : Settled (Slice.readVarint context) :=
  settled_readDigits context Limits.varintBytes 1 0

theorem settled_int32 (context : String) : Settled (Input.readInt32 context : Read Slice Int32) := by
  show Settled (Slice.readInt32 context)
  rw [Slice.readInt32_eq]
  refine (settled_readBytes 4 context).bind fun bytes => ?_
  split
  · exact settled_pure _
  · exact settled_throw _

theorem settled_text (length : Nat) (field : String) : Settled (Input.readText length field : Read Slice String) := by
  refine (settled_readBytes length field).bind fun bytes => ?_
  split
  · exact settled_pure _
  · exact settled_throw _

theorem settled_length (limit : Nat) (field : String) : Settled (readLength limit field : Read Slice Nat) := by
  refine (settled_int32 field).bind fun length => ?_
  dsimp only
  split
  · exact settled_throw _
  · split
    · exact settled_throw _
    · exact settled_pure _

theorem settled_string (field : String) : Settled (readString field : Read Slice String) :=
  (settled_length Limits.stringBytes field).bind fun length => settled_text length field

theorem Settled.collection (h : Settled read) (limit : Nat) (field : String) :
    Settled (readCollection limit field read) :=
  (settled_length limit field).bind fun count => h.items count []

theorem settled_record : Settled (Record.read : Read Slice Record) := by
  have strings (field : String) : Settled (readCollection Limits.elements field (readString field) : Read Slice _) :=
    (settled_string field).collection _ _
  refine (settled_int32 _).bind fun kind => ?_
  refine ((settled_int32 _).collection _ _).bind fun version => ?_
  refine (strings _).bind fun payload => ?_
  refine (strings _).bind fun table => ?_
  refine (settled_string _).bind fun extraText => ?_
  refine (settled_string _).bind fun packageName => ?_
  exact (settled_int32 _).bind fun extraFlags => settled_pure _

end

end Wire

end ClassLedger
