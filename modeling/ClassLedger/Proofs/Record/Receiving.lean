import ClassLedger.Proofs.Record.Form
import ClassLedger.Proofs.Wire.Cutoff

/-!
# Records from a source that breaks off

A fault of the source takes no record away and adds or changes none: up to the place where the source breaks off the
records are those that stand there, and the fault is reported for the field that the bytes end in.
-/

namespace ClassLedger.Record

open Wire

variable {count i k p : Nat} {r : Record} {s : Slice} {bytes : List UInt8}

/-- What the reads of at most `count` records give, one after the other and none after an error, and where each of them
leaves the input. -/
def readEach {σ : Type} [Input σ] (place : σ → Nat) : Nat → σ → List (Except DecodeError Record × Nat)
  | 0, _ => []
  | count + 1, s =>
    match (read : Read σ Record) s with
    | .ok r t => (.ok r, place t) :: readEach place count t
    | .error e t => [(.error e, place t)]

/-- A result of a byte string as it is reported by a source that breaks off behind the same `total` bytes. -/
def brokenOff (fault : Fault) (total : Nat) : Except DecodeError Record × Nat → Except DecodeError Record × Nat
  | (.error (.endOfInput context), _) =>
    (.error (if fault.kind = .unexpectedEnd then .endOfInput context else .transport context fault), total)
  | result => result

theorem brokenOff_of_not_isEnd {fault : Fault} {total place : Nat} {e : DecodeError} (notEnd : e.isEnd = false) :
    brokenOff fault total (.error e, place) = (.error e, place) := by
  unfold brokenOff
  split
  · rename_i same
    cases same
    cases notEnd
  · rfl

theorem brokenOff_eq_ok_iff {fault : Fault} {total : Nat} {result : Except DecodeError Record × Nat} :
    brokenOff fault total result = (.ok r, p) ↔ result = (.ok r, p) := by
  unfold brokenOff
  split <;> simp

theorem readEach_cutOff {fault : Fault} {total : Nat} {source : Source} {slice : Slice}
    (level : (cutOff fault total).level source slice) (count : Nat) :
    readEach Source.position count source = (readEach Slice.position count slice).map (brokenOff fault total) := by
  induction count generalizing source slice with
  | zero => rfl
  | succ count ih =>
    have outcome := (readsAlike_cutOff fault total).record level
    unfold readEach
    generalize (read : Read Source Record) source = result at outcome ⊢
    generalize (read : Read Slice Record) slice = result' at outcome ⊢
    cases outcome with
    | ok r level' =>
      obtain ⟨u, same, rfl⟩ := level'
      simp only [List.map_cons, ih ⟨u, same, rfl⟩, List.cons.injEq, and_true]
      exact congrArg (Prod.mk _) same.position
    | refused notEnd level' =>
      obtain ⟨u, same, rfl⟩ := level'
      simp only [List.map_cons, List.map_nil, brokenOff_of_not_isEnd notEnd, List.cons.injEq, and_true]
      exact congrArg (Prod.mk _) same.position
    | ended ended =>
      obtain ⟨context, rfl, rfl, position⟩ := ended
      simp only [List.map_cons, List.map_nil, List.cons.injEq, and_true]
      exact congrArg (Prod.mk _) position

/-! ### Where records stand -/

/-- The record at index `i` is read if it stands behind `i` others, all of them within their limits. -/
theorem getElem?_readEach_eq_ok_iff :
    (readEach Slice.position count s)[i]? = some (.ok r, p) ↔ i < count ∧ ∃ before : List Record,
      before.length = i ∧ (∀ x ∈ before ++ [r], x.WithinLimits) ∧
        ∃ t, s.Over ((before ++ [r]).flatMap form) t ∧ t.position = p := by
  induction count generalizing i s with
  | zero => simp [readEach]
  | succ count ih =>
    unfold readEach
    cases i with
    | zero =>
      have only : (∃ before : List Record, before.length = 0 ∧ (∀ x ∈ before ++ [r], x.WithinLimits) ∧
          ∃ t, s.Over ((before ++ [r]).flatMap form) t ∧ t.position = p) ↔
          ∃ t, (read : Read Slice Record) s = .ok r t ∧ t.position = p := by
        simp only [reads.eq_ok_iff, ← withinLimits_iff, List.length_eq_zero_iff, exists_eq_left]
        simp [and_left_comm, and_assoc]
      rw [only]
      cases (read : Read Slice Record) s <;> simp [and_assoc]
    | succ i =>
      constructor
      · intro h
        split at h
        · rename_i x u ok
          obtain ⟨first, within⟩ := reads.sound ok
          obtain ⟨less, before, length, within', t, path, position⟩ := ih.1 h
          refine ⟨Nat.succ_lt_succ less, x :: before, by rw [List.length_cons, length], ?_, t, first.append path, position⟩
          exact List.forall_mem_cons.2 ⟨withinLimits_iff.2 within, within'⟩
        · cases h
      · rintro ⟨less, _ | ⟨x, before⟩, length, within, t, path, position⟩
        · cases length
        · obtain ⟨within, within'⟩ := List.forall_mem_cons.1 within
          obtain ⟨u, first, path⟩ := Slice.over_append_iff.1 path
          rw [reads.eq_ok_iff.2 ⟨first, withinLimits_iff.1 within⟩]
          exact ih.2 ⟨Nat.lt_of_succ_lt_succ less, before, Nat.succ.inj length, within', t, path, position⟩

theorem exists_over_ofList_iff {a b : List UInt8} :
    (∃ t, (Slice.ofList a).Over b t ∧ t.position = p) ↔ b <+: a ∧ b.length = p := by
  simp only [Slice.over_ofList_iff]
  constructor
  · rintro ⟨t, ⟨whole, position⟩, rfl⟩
    exact ⟨⟨t.rest, whole.symm⟩, position.symm⟩
  · rintro ⟨⟨rest, whole⟩, rfl⟩
    exact ⟨⟨rest, b.length⟩, ⟨whole.symm, rfl⟩, rfl⟩

/-- Of some bytes the first `k` give the records that end there. -/
theorem getElem?_readEach_take_iff :
    (readEach Slice.position count (.ofList (bytes.take k)))[i]? = some (.ok r, p) ↔
      p ≤ k ∧ (readEach Slice.position count (.ofList bytes))[i]? = some (.ok r, p) := by
  simp only [getElem?_readEach_eq_ok_iff, exists_over_ofList_iff, List.prefix_take_iff]
  constructor
  · rintro ⟨less, before, length, within, ⟨stands, le⟩, rfl⟩
    exact ⟨le, less, before, length, within, stands, rfl⟩
  · rintro ⟨le, less, before, length, within, stands, rfl⟩
    exact ⟨less, before, length, within, ⟨stands, le⟩, rfl⟩

/-- A source that hands out the first `k` of some bytes and then reports a fault gives what the byte string of these
bytes gives, except that the end of the bytes is the fault, in the same context and behind all `k` bytes.  So the
records are those of all the bytes that end within the first `k`. -/
theorem readEach_source (bytes : List UInt8) (k : Nat) (le : k ≤ bytes.length) (fault : Fault) (pace : Nat → Pace)
    (count : Nat) :
    let source : Source := { unread := bytes.take k, ending := .failing fault, pace }
    readEach Source.position count source =
      (readEach Slice.position count (.ofList (bytes.take k))).map (brokenOff fault k) ∧
    ∀ (i : Nat) (r : Record) (p : Nat), (readEach Source.position count source)[i]? = some (.ok r, p) ↔
      p ≤ k ∧ (readEach Slice.position count (.ofList bytes))[i]? = some (.ok r, p) := by
  intro source
  have level : (cutOff fault k).level source (.ofList (bytes.take k)) := by
    refine ⟨{ source with ending := .clean }, ⟨rfl, rfl, rfl, ?_⟩, rfl⟩
    show 0 + (bytes.take k).length = k
    rw [List.length_take]
    omega
  have same := readEach_cutOff level count
  refine ⟨same, fun i r p => ?_⟩
  rw [← getElem?_readEach_take_iff, same, List.getElem?_map, Option.map_eq_some_iff]
  simp only [brokenOff_eq_ok_iff, exists_eq_right]

/-- The second record breaks off within its package name, behind a first one that is whole. -/
theorem readEach_source_package_name :
    let bytes := form {} ++ form { packageName := "ab" }
    let pace : Nat → Pace := fun _ => ⟨1, 3, by decide⟩
    53 ≤ bytes.length ∧
    readEach Source.position 3 { unread := bytes.take 53, ending := .failing { kind := .connectionReset }, pace } =
      [(.ok {}, 28), (.error (.transport "package_name" { kind := .connectionReset }), 53)] := by
  intro bytes pace
  have le : 53 ≤ bytes.length := by decide +kernel
  refine ⟨le, (readEach_source bytes 53 le { kind := .connectionReset } pace 3).1.trans ?_⟩
  rfl

end ClassLedger.Record
