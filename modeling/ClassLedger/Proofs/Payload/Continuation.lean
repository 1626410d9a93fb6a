import ClassLedger.Proofs.Payload.Fields
import ClassLedger.Proofs.Wire.Extension

/-!
# Payloads that go on

More bytes behind a payload leave its complete fields as they are.  They can only complete the field in which the bytes
ended; a field that is broken in another way stays broken, and nothing behind it is read.
-/

namespace ClassLedger.Field

open Wire

variable {before fields : List Field} {s t : Slice} {bytes : List UInt8} {e : DecodeError}

theorem settled_read : Settled read :=
  (settled_varint "payload tag").bind fun _ => (settled_varint "payload value").bind fun _ => settled_pure _

private theorem not_isEmpty_followedBy (more : ¬ s.isEmpty) (behind : List UInt8) :
    ¬ (s.followedBy behind).isEmpty := by
  simp only [Slice.isEmpty, Slice.followedBy, List.isEmpty_iff, List.append_eq_nil_iff] at more ⊢
  exact fun empty => more empty.1

theorem isPrefix_readAll (before : List Field) (s : Slice) : before.reverse <+: (readAll before s).1 := by
  induction before, s using readAll.induct with
  | case1 before s whole =>
    exact ⟨[], by rw [readAll_of_isEmpty whole, List.append_nil]⟩
  | case2 before s more f t ok ih =>
    rw [readAll_of_eq_ok more ok]
    refine List.IsPrefix.trans ?_ ih
    rw [List.reverse_cons]
    exact List.prefix_append _ _
  | case3 before s more e t failed =>
    exact ⟨[], by rw [readAll_of_eq_error more failed, List.append_nil]⟩

theorem isPrefix_readAll_followedBy (before : List Field) (s : Slice) (behind : List UInt8) :
    (readAll before s).1 <+: (readAll before (s.followedBy behind)).1 := by
  -- A field that was read is read again.  Where reading stopped, reading on can only add fields.
  induction before, s using readAll.induct with
  | case1 before s whole =>
    rw [readAll_of_isEmpty whole]
    exact isPrefix_readAll before _
  | case2 before s more f t ok ih =>
    rw [readAll_of_eq_ok more ok, readAll_of_eq_ok (not_isEmpty_followedBy more behind) (settled_read.ok ok behind)]
    exact ih
  | case3 before s more e t failed =>
    rw [readAll_of_eq_error more failed]
    exact isPrefix_readAll before _

/-- What breaks a payload off, other than its end, breaks it off whatever stands behind. -/
theorem readAll_followedBy_of_broken (broken : readAll before s = (fields, some e)) (notEnd : e.isEnd = false)
    (behind : List UInt8) : readAll before (s.followedBy behind) = (fields, some e) := by
  induction before, s using readAll.induct with
  | case1 before s whole =>
    rw [readAll_of_isEmpty whole] at broken
    cases broken
  | case2 before s more f t ok ih =>
    rw [readAll_of_eq_ok more ok] at broken
    rw [readAll_of_eq_ok (not_isEmpty_followedBy more behind) (settled_read.ok ok behind)]
    exact ih broken
  | case3 before s more e' t failed =>
    rw [readAll_of_eq_error more failed] at broken
    obtain ⟨rfl, same⟩ := Prod.mk.inj broken
    obtain rfl := Option.some.inj same
    exact readAll_of_eq_error (not_isEmpty_followedBy more behind) (settled_read.refused failed notEnd behind)

theorem isPrefix_ofBytes_append (bytes behind : List UInt8) :
    (ofBytes bytes).1 <+: (ofBytes (bytes ++ behind)).1 := by
  unfold ofBytes
  rw [Slice.ofList_append]
  exact isPrefix_readAll_followedBy [] _ behind

theorem ofBytes_append_of_broken (broken : ofBytes bytes = (fields, some e)) (notEnd : e.isEnd = false)
    (behind : List UInt8) : ofBytes (bytes ++ behind) = (fields, some e) := by
  unfold ofBytes at broken ⊢
  rw [Slice.ofList_append]
  exact readAll_followedBy_of_broken broken notEnd behind

end ClassLedger.Field
