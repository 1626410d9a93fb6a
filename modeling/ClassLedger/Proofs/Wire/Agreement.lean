import ClassLedger.Proofs.Wire.Gathering
import ClassLedger.Proofs.Wire.Pairing
import ClassLedger.Proofs.Wire.Reading

/-!
# Byte strings and sources are read alike

What a caller asks of an input is written down without saying of which (`Request`), so the same requests can be put to
a byte string and to a source that delivers the same bytes.  Request by request both give the same values and errors
and stand at the same place, until the first one meets the end of the bytes: that one fails in both, and the source is
then used up (`inStep_source_slice`).
-/

namespace ClassLedger

namespace Wire

/-! ### Requests -/

/-- A read that goes on after a refusal, but not after the end of the bytes. -/
def attempted {σ α : Type} (read : Read σ α) : Read σ (Except DecodeError α) := fun s =>
  match read s with
  | .ok x t => .ok (.ok x) t
  | .error e t => if e.isEnd then .error e t else .ok (.error e) t

/-- What a caller may ask of an input: the reads of values, and whatever can be made of them by looking at the values
and errors so far. -/
inductive Request : Type → Type 1 where
  | int32 (context : String) : Request Int32
  | text (length : Nat) (field : String) : Request String
  | length (limit : Nat) (field : String) : Request Nat
  | string (field : String) : Request String
  | collection {α : Type} (limit : Nat) (field : String) (item : Request α) : Request (List α)
  | record : Request Record
  | value {α : Type} (x : α) : Request α
  /-- A refusal of the caller's own, which never poses as the end of the bytes. -/
  | refusal {α : Type} (e : DecodeError) (notEnd : e.isEnd = false) : Request α
  | andThen {α β : Type} (first : Request α) (next : α → Request β) : Request β
  | attempt {α : Type} (request : Request α) : Request (Except DecodeError α)

/-- Puts a request to an input. -/
def Request.run {σ : Type} [Input σ] {α : Type} : Request α → Read σ α
  | int32 context => Input.readInt32 context
  | text count field => Input.readText count field
  | length limit field => readLength limit field
  | string field => readString field
  | collection limit field item => readCollection limit field item.run
  | record => Record.read
  | value x => pure x
  | refusal e _ => throw e
  | andThen first next => first.run >>= fun x => (next x).run
  | attempt request => attempted request.run

/-- A source of `total` bytes and a slice answer the requests alike, one after the other and whatever was refused,
until the bytes end. -/
def InStep (total : Nat) : List (Sigma Request) → Source → Slice → Prop
  | [], _, _ => True
  | ⟨_, request⟩ :: later, s, t =>
    match request.run s, request.run t with
    | .ok x s', .ok y t' => x = y ∧ s'.position = t'.position ∧ InStep total later s' t'
    | .error e s', .error e' t' =>
      e = e' ∧
        if e.isEnd then s'.unread = [] ∧ s'.position = total
        else s'.position = t'.position ∧ InStep total later s' t'
    | _, _ => False

/-! ### Reads with the same outcome -/

/-- The source, which never faults, has the bytes ahead and behind that the slice has, `total` of them in all. -/
structure SamePlace (total : Nat) (s : Source) (t : Slice) : Prop where
  ending : s.ending = .clean
  unread : s.unread = t.rest
  position : s.position = t.position
  total_eq : s.position + s.unread.length = total

/-- Such a source next to the slice: both give up at the end of the bytes, where the source is used up. -/
def sameBytes (total : Nat) : Pairing Source Slice where
  level := SamePlace total
  ended e s e' _ := e = e' ∧ e.isEnd = true ∧ s.unread = [] ∧ s.position = total

theorem alike_attempted {total : Nat} {α : Type} {read : Read Source α} {read' : Read Slice α}
    (h : (sameBytes total).Alike read read') : (sameBytes total).Alike (attempted read) (attempted read') := by
  intro s t same
  have outcome := h same
  unfold attempted
  generalize read s = result at outcome ⊢
  generalize read' t = result' at outcome ⊢
  cases outcome with
  | ok x same => exact .ok _ same
  | refused notEnd same =>
    simp only [notEnd, Bool.false_eq_true, ↓reduceIte]
    exact .ok _ same
  | ended ended =>
    obtain ⟨rfl, isEnd, finished, position⟩ := ended
    simp only [isEnd, ↓reduceIte]
    exact .ended ⟨rfl, isEnd, finished, position⟩

/-! ### The reads an input offers -/

theorem Source.length_of_readBytes_eq_ok {count : Nat} {context : String} {bytes : List UInt8} {s t : Source}
    (h : s.readBytes count context = .ok bytes t) : bytes.length = count := by
  unfold Source.readBytes at h
  split at h
  · cases h
  · split at h
    · cases h
      assumption
    · cases h

/-- A source and a slice that are alike in their bytes are alike in all they offer. -/
theorem Pairing.readsAlike_of_bytes {p : Pairing Source Slice}
    (bytes : ∀ count context, p.Alike (Source.readBytes count context) (Slice.readBytes count context)) :
    p.ReadsAlike where
  int32 context := by
    show p.Alike (Source.readInt32 context) (Slice.readInt32 context)
    rw [Slice.readInt32_eq]
    refine (bytes 4 context).bind fun bytes s u read => ?_
    -- the branch for another number of bytes poses as the end without being there, but is never taken
    match bytes, Source.length_of_readBytes_eq_ok read with
    | [a, b, c, d], _ => exact alike_pure _
  text count field := by
    refine (bytes count field).bind fun bytes _ _ _ => ?_
    cases Text.ofUtf8? bytes with
    | some x => exact alike_pure x
    | none => exact alike_throw rfl

theorem readsAlike_sameBytes (total : Nat) : (sameBytes total).ReadsAlike := by
  refine Pairing.readsAlike_of_bytes fun count context s t same => ?_
  obtain ⟨u, passed, read⟩ := Source.readBytes_of_clean count context same.ending
  have total_eq := same.total_eq
  rw [read, Slice.readBytes_eq, ← same.unread]
  by_cases enough : count ≤ s.unread.length
  · rw [if_pos enough, if_pos enough]
    refine .ok _ ⟨passed.ending, passed.unread, ?_, ?_⟩
    · rw [passed.position, same.position, Nat.min_eq_left enough]
    · rw [passed.position, passed.unread, List.length_drop]
      omega
  · rw [if_neg enough, if_neg enough]
    refine .ended ⟨rfl, rfl, ?_, ?_⟩
    · rw [passed.unread, List.drop_eq_nil_iff]
      omega
    · rw [passed.position]
      omega

/-! ### Requests one after the other -/

theorem alike_run (total : Nat) {α : Type} (request : Request α) :
    (sameBytes total).Alike request.run request.run := by
  have alike := readsAlike_sameBytes total
  induction request with
  | int32 context => exact alike.int32 context
  | text count field => exact alike.text count field
  | length limit field => exact alike.length limit field
  | string field => exact alike.string field
  | collection limit field item ih => exact alike.collection limit field ih
  | record => exact alike.record
  | value x => exact Pairing.alike_pure x
  | refusal e notEnd => exact Pairing.alike_throw notEnd
  | andThen first next ih ih' => exact ih.bind fun x _ _ _ => ih' x
  | attempt request ih => exact alike_attempted ih

theorem inStep_of_samePlace {total : Nat} (requests : List (Sigma Request)) {s : Source} {t : Slice}
    (same : SamePlace total s t) : InStep total requests s t := by
  induction requests generalizing s t with
  | nil => trivial
  | cons first later ih =>
    obtain ⟨α, request⟩ := first
    have outcome := alike_run total request same
    unfold InStep
    generalize request.run s = result at outcome ⊢
    generalize request.run t = result' at outcome ⊢
    cases outcome with
    | ok x same => exact ⟨rfl, same.position, ih same⟩
    | refused notEnd same => simpa [notEnd] using ⟨same.position, ih same⟩
    | ended ended =>
      obtain ⟨rfl, isEnd, finished, position⟩ := ended
      simpa [isEnd] using ⟨finished, position⟩

/-- A source without faults, however it cuts its bytes and interrupts, answers like a slice of the same bytes. -/
theorem inStep_source_slice (bytes : List UInt8) (pace : Nat → Pace) (requests : List (Sigma Request)) :
    InStep bytes.length requests { unread := bytes, pace } (.ofList bytes) :=
  inStep_of_samePlace requests ⟨rfl, rfl, rfl, Nat.zero_add _⟩

end Wire

end ClassLedger
