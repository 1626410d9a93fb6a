import ClassLedger.Proofs.Wire.Form
import ClassLedger.Wire.Slice

/-!
# What reading from a byte string gives

A read succeeds exactly when the form of its result stands ahead, with every measure within its limit, and it then
stops directly behind that form.  Where a form stands ahead whose lengths fit four bytes, the first measure beyond its
limit decides the outcome: without one the value is read, else the read is refused with the error of that measure
(`Reads`).  Integers, strings and collections are read in this sense, and so is every sequence of such reads.
-/

namespace ClassLedger.Wire

/-! ### Sequences of reads and writes -/

section Sequence

variable {ε σ α β : Type} {first : EStateM ε σ α} {next : α → EStateM ε σ β} {s t u : σ} {x : α} {y : β} {e e' : ε}

theorem bind_eq_ok_iff : (first >>= next) s = .ok y u ↔ ∃ x t, first s = .ok x t ∧ next x t = .ok y u := by
  simp only [bind, EStateM.bind]
  cases first s <;> simp [and_assoc]

theorem bind_of_eq_ok (h : first s = .ok x t) : (first >>= next) s = next x t := by
  simp only [bind, EStateM.bind, h]

theorem bind_of_eq_error (h : first s = .error e t) : (first >>= next) s = .error e t := by
  simp only [bind, EStateM.bind, h]

theorem bind_eq_error_iff : (first >>= next) s = .error e u ↔
    first s = .error e u ∨ ∃ x t, first s = .ok x t ∧ next x t = .error e u := by
  simp only [bind, EStateM.bind]
  cases first s <;> simp [and_assoc]

theorem throw_eq_error_iff : (throw e : EStateM ε σ α) s = .error e' t ↔ e' = e ∧ t = s := by
  constructor
  · intro h
    obtain ⟨rfl, rfl⟩ := EStateM.Result.error.inj h
    exact ⟨rfl, rfl⟩
  · rintro ⟨rfl, rfl⟩
    rfl

end Sequence

/-! ### Moving over bytes -/

namespace Slice

/-- Reading on from `s` over `bytes` leads to `t`. -/
def Over (s : Slice) (bytes : List UInt8) (t : Slice) : Prop :=
  s.rest = bytes ++ t.rest ∧ t.position = s.position + bytes.length

/-- The slice behind some of its bytes. -/
def skip (s : Slice) (count : Nat) : Slice := ⟨s.rest.drop count, s.position + count⟩

variable {s t u : Slice} {a b : List UInt8}

theorem over_nil_iff : s.Over [] t ↔ s = t := by
  cases s
  cases t
  simp [Over, eq_comm]

theorem over_append_iff : s.Over (a ++ b) u ↔ ∃ t, s.Over a t ∧ t.Over b u := by
  constructor
  · rintro ⟨rest, position⟩
    refine ⟨⟨b ++ u.rest, s.position + a.length⟩, ⟨by simp [rest], rfl⟩, rfl, ?_⟩
    simp only [position, List.length_append]
    omega
  · rintro ⟨t, ⟨rest, position⟩, rest', position'⟩
    refine ⟨by rw [rest, rest', List.append_assoc], ?_⟩
    simp only [position, position', List.length_append]
    omega

theorem Over.append (h : s.Over a t) (h' : t.Over b u) : s.Over (a ++ b) u := over_append_iff.2 ⟨t, h, h'⟩

theorem Over.eq_skip (h : s.Over a t) : t = s.skip a.length := by
  unfold skip
  rw [h.1, List.drop_left, ← h.2]

/-- A whole byte string is read over up to an end without bytes. -/
theorem over_ofList_iff : (ofList a).Over b t ↔ a = b ++ t.rest ∧ t.position = b.length := by
  simp [Over, ofList]

end Slice

/-! ### Outcomes -/

/-- The result is `x` up to `t` if all measures are within their limits, else the refusal of the first that is not. -/
def Outcome {α : Type} (result : EStateM.Result DecodeError Slice α) (measures : List Measure) (x : α) (t : Slice) :
    Prop :=
  match firstBeyond measures with
  | none => result = .ok x t
  | some m => ∃ u, result = .error m.refusal u

section

variable {α β : Type} {read : Read Slice α} {next : α → Read Slice β} {measures measures' : List Measure}
  {s t u : Slice} {x : α} {y : β}

theorem Outcome.eq_ok {result : EStateM.Result DecodeError Slice α} (h : Outcome result measures x t)
    (within : ∀ m ∈ measures, m.Within) : result = .ok x t := by
  unfold Outcome at h
  rwa [firstBeyond_eq_none_iff.2 within] at h

theorem Outcome.eq_error {result : EStateM.Result DecodeError Slice α} (h : Outcome result measures x t)
    {m : Measure} (first : firstBeyond measures = some m) : ∃ u, result = .error m.refusal u := by
  unfold Outcome at h
  rwa [first] at h

theorem Outcome.of_eq_ok {result : EStateM.Result DecodeError Slice α} (h : result = .ok x t) :
    Outcome result [] x t := h

/-- Of two reads one after the other, the first one's measures come first. -/
theorem Outcome.bind (h : Outcome (read s) measures x t) (h' : Outcome (next x t) measures' y u) :
    Outcome ((read >>= next) s) (measures ++ measures') y u := by
  unfold Outcome at h ⊢
  rw [firstBeyond_append]
  cases first : firstBeyond measures with
  | none =>
    simp only [first] at h
    rw [bind_of_eq_ok h, Option.none_or]
    exact h'
  | some m =>
    simp only [first] at h
    obtain ⟨v, h⟩ := h
    exact ⟨v, bind_of_eq_error h⟩

/-- What a read does, by the form and the measures of the values it reads. -/
structure Reads {α : Type} (read : Read Slice α) (form : α → List UInt8) (measures : α → List Measure) : Prop where
  /-- What was read stands in the input, within all limits. -/
  sound : ∀ {s t : Slice} {x : α}, read s = .ok x t → s.Over (form x) t ∧ ∀ m ∈ measures x, m.Within
  /-- What stands in the input is read, unless a limit forbids it. -/
  outcome : ∀ {s t : Slice} {x : α}, s.Over (form x) t → (∀ m ∈ measures x, m.Fits) →
    Outcome (read s) (measures x) x t

theorem Reads.eq_ok_iff {form : α → List UInt8} {measures : α → List Measure} (h : Reads read form measures) :
    read s = .ok x t ↔ s.Over (form x) t ∧ ∀ m ∈ measures x, m.Within := by
  refine ⟨h.sound, fun ⟨path, within⟩ => ?_⟩
  exact (h.outcome path fun m hm => (within m hm).fits).eq_ok within

end

/-! ### Integers and lengths -/

section

variable {s t : Slice} {context : String} {n : Nat}

theorem readInt32_eq_ok_iff {value : Int32} :
    Input.readInt32 context s = .ok value t ↔ s.Over (bigEndian value) t := by
  show Slice.readInt32 context s = .ok value t ↔ _
  unfold Slice.readInt32
  constructor
  · intro h
    split at h
    · rename_i a b c d rest ahead
      obtain ⟨rfl, rfl⟩ := EStateM.Result.ok.inj h
      exact ⟨by rw [ahead, bigEndian_ofBigEndian]; rfl, rfl⟩
    · cases h
  · rintro ⟨ahead, position⟩
    obtain ⟨a, b, c, d, bytes, value⟩ := ofBigEndian_bigEndian value
    rw [length_bigEndian] at position
    rw [bytes] at ahead
    simp only [ahead, List.cons_append, List.nil_append, value, ← position]

theorem reads_int32 (context : String) : Reads (Input.readInt32 context) bigEndian fun _ => [] where
  sound h := ⟨readInt32_eq_ok_iff.1 h, by simp⟩
  outcome path _ := .of_eq_ok (readInt32_eq_ok_iff.2 path)

/-- A length that four bytes hold is read, or refused if it is beyond the limit. -/
theorem readLength_of_over (limit : Nat) (field : String) (path : s.Over (lengthForm n) t)
    (fits : n ≤ Limits.prefixValue) :
    readLength limit field s =
      if limit < n then .error (.lengthExceedsLimit field n limit) t else .ok n t := by
  have value := toInt_ofNat_of_fits fits
  unfold readLength
  rw [bind_of_eq_ok (readInt32_eq_ok_iff.2 path)]
  simp only [value, Int.toNat_natCast, show ¬ (n : Int) < 0 by omega, ↓reduceIte]
  split <;> rfl

theorem readLength_outcome (field : String) {limit : Nat} (limit_le : limit ≤ Limits.prefixValue)
    (path : s.Over (lengthForm n) t) (fits : n ≤ Limits.prefixValue) :
    Outcome (readLength limit field s) [{ field, length := n, limit, limit_le }] n t := by
  have read := readLength_of_over limit field path fits
  by_cases beyond : limit < n
  · rw [if_pos beyond] at read
    simp only [Outcome, firstBeyond, List.find?_cons, beyond, decide_true]
    exact ⟨t, read⟩
  · rw [if_neg beyond] at read
    simp only [Outcome, firstBeyond, List.find?_cons, beyond, decide_false, List.find?_nil]
    exact read

theorem readLength_eq_ok {limit : Nat} {field : String} (h : readLength limit field s = .ok n t) :
    n ≤ limit ∧ n ≤ Limits.prefixValue ∧ s.Over (lengthForm n) t := by
  unfold readLength at h
  obtain ⟨value, u, read, h⟩ := bind_eq_ok_iff.1 h
  have path := readInt32_eq_ok_iff.1 read
  split at h
  · cases h
  · split at h
    · cases h
    · rename_i nonneg within
      obtain ⟨rfl, rfl⟩ := EStateM.Result.ok.inj h
      have small := value.toInt_lt
      have same : Int32.ofNat value.toInt.toNat = value := by
        apply Int32.toInt.inj
        rw [Int32.toInt_ofNat_of_lt (by omega)]
        omega
      exact ⟨by omega, by unfold Limits.prefixValue; omega, by rwa [lengthForm, same]⟩

end

/-! ### Bytes and strings -/

section

variable {s t : Slice} {field : String} {x : String}

theorem readBytes_eq_ok_iff {count : Nat} {bytes : List UInt8} :
    Slice.readBytes count field s = .ok bytes t ↔ bytes.length = count ∧ s.Over bytes t := by
  unfold Slice.readBytes
  simp only [List.splitAt_eq]
  constructor
  · intro h
    split at h
    · rename_i length
      obtain ⟨rfl, rfl⟩ := EStateM.Result.ok.inj h
      exact ⟨length, (List.take_append_drop count s.rest).symm, by rw [length]⟩
    · cases h
  · rintro ⟨rfl, ahead, position⟩
    rw [ahead, List.take_left, List.drop_left, if_pos rfl, ← position]

theorem Slice.readBytes_eq (count : Nat) (context : String) (t : Slice) :
    t.readBytes count context =
      if count ≤ t.rest.length then .ok (t.rest.take count) ⟨t.rest.drop count, t.position + count⟩
      else .error (.endOfInput context) t := by
  have length : (t.rest.take count).length = count ↔ count ≤ t.rest.length := by
    rw [List.length_take]
    omega
  simp only [Slice.readBytes, List.splitAt_eq, length]

/-- An integer of a slice is four bytes read at once. -/
theorem Slice.readInt32_eq (context : String) :
    Slice.readInt32 context = (Slice.readBytes 4 context >>= fun
      | [a, b, c, d] => return ofBigEndian a b c d
      | _ => throw (.endOfInput context)) := by
  funext ⟨rest, position⟩
  match rest with
  | [] | [_] | [_, _] | [_, _, _] => rfl
  | a :: b :: c :: d :: rest =>
    have enough : 4 ≤ (a :: b :: c :: d :: rest).length := by simp
    rw [bind_of_eq_ok ((Slice.readBytes_eq 4 context _).trans (if_pos enough))]
    rfl

theorem readText_eq_ok_iff {length : Nat} :
    Input.readText length field s = .ok x t ↔ x.utf8ByteSize = length ∧ s.Over (Text.utf8 x) t := by
  show Slice.readText length field s = .ok x t ↔ _
  unfold Slice.readText
  rw [bind_eq_ok_iff]
  constructor
  · rintro ⟨bytes, u, read, h⟩
    obtain ⟨size, path⟩ := readBytes_eq_ok_iff.1 read
    cases valid : Text.ofUtf8? bytes with
    | none =>
      rw [valid] at h
      cases h
    | some text =>
      rw [valid] at h
      obtain ⟨rfl, rfl⟩ := EStateM.Result.ok.inj h
      obtain rfl := Text.ofUtf8?_eq_some_iff.1 valid
      exact ⟨size, path⟩
  · rintro ⟨size, path⟩
    refine ⟨Text.utf8 x, t, readBytes_eq_ok_iff.2 ⟨size, path⟩, ?_⟩
    rw [Text.ofUtf8?_utf8]
    rfl

theorem reads_string (field : String) : Reads (readString field) stringForm fun x => [stringMeasure field x] where
  sound {s t x} h := by
    unfold readString at h
    obtain ⟨length, u, prefixRead, bodyRead⟩ := bind_eq_ok_iff.1 h
    obtain ⟨within, -, before⟩ := readLength_eq_ok prefixRead
    obtain ⟨rfl, behind⟩ := readText_eq_ok_iff.1 bodyRead
    exact ⟨before.append behind, by simpa [Measure.Within, stringMeasure] using within⟩
  outcome {s t x} path fits := by
    obtain ⟨u, before, behind⟩ := Slice.over_append_iff.1 path
    have fits : x.utf8ByteSize ≤ Limits.prefixValue := fits _ List.mem_cons_self
    have text : Outcome (Input.readText x.utf8ByteSize field u) [] x t :=
      .of_eq_ok (readText_eq_ok_iff.2 ⟨rfl, behind⟩)
    exact (readLength_outcome field (stringMeasure field x).limit_le before fits).bind text

end

/-! ### Collections -/

section

variable {α : Type} {item : Read Slice α} {form : α → List UInt8} {measures : α → List Measure} {s t : Slice}

/-- The items that are read stand one behind the other, and go behind those read before. -/
theorem readItems_eq_ok (h : Reads item form measures) {count : Nat} {before ys : List α}
    (read : readItems item count before s = .ok ys t) :
    ∃ xs, xs.length = count ∧ ys = before.reverse ++ xs ∧ s.Over (xs.flatMap form) t ∧
      ∀ m ∈ xs.flatMap measures, m.Within := by
  induction count generalizing before s with
  | zero =>
    obtain ⟨rfl, rfl⟩ := EStateM.Result.ok.inj read
    exact ⟨[], rfl, by simp, by simp [Slice.over_nil_iff], by simp⟩
  | succ count ih =>
    obtain ⟨x, u, first, others⟩ := bind_eq_ok_iff.1 read
    obtain ⟨xs, length, rfl, path, within⟩ := ih others
    obtain ⟨path', within'⟩ := h.sound first
    refine ⟨x :: xs, by rw [List.length_cons, length], by simp, path'.append path, ?_⟩
    rw [List.flatMap_cons]
    exact List.forall_mem_append.2 ⟨within', within⟩

theorem readItems_outcome (h : Reads item form measures) {xs : List α} (before : List α)
    (path : s.Over (xs.flatMap form) t) (fits : ∀ m ∈ xs.flatMap measures, m.Fits) :
    Outcome (readItems item xs.length before s) (xs.flatMap measures) (before.reverse ++ xs) t := by
  induction xs generalizing before s with
  | nil =>
    obtain rfl := Slice.over_nil_iff.1 path
    rw [List.append_nil]
    exact .of_eq_ok rfl
  | cons x xs ih =>
    rw [List.flatMap_cons] at path fits
    obtain ⟨u, first, others⟩ := Slice.over_append_iff.1 path
    obtain ⟨fits, fits'⟩ := List.forall_mem_append.1 fits
    have : Outcome ((item >>= fun y => readItems item xs.length (y :: before)) s)
        (measures x ++ xs.flatMap measures) ((x :: before).reverse ++ xs) t :=
      (h.outcome first fits).bind (ih (x :: before) others fits')
    rwa [List.reverse_cons, List.append_assoc] at this

theorem reads_collection (h : Reads item form measures) (field : String) {limit : Nat}
    (limit_le : limit ≤ Limits.prefixValue) :
    Reads (readCollection limit field item) (listForm form) fun xs =>
      { field, length := xs.length, limit, limit_le } :: xs.flatMap measures where
  sound {s t xs} read := by
    unfold readCollection at read
    obtain ⟨count, u, prefixRead, itemsRead⟩ := bind_eq_ok_iff.1 read
    obtain ⟨within, -, before⟩ := readLength_eq_ok prefixRead
    obtain ⟨xs, rfl, rfl, behind, within'⟩ := readItems_eq_ok h itemsRead
    exact ⟨before.append behind, List.forall_mem_cons.2 ⟨within, within'⟩⟩
  outcome {s t xs} path fits := by
    obtain ⟨u, before, behind⟩ := Slice.over_append_iff.1 path
    obtain ⟨fits, fits'⟩ := List.forall_mem_cons.1 fits
    have items := readItems_outcome h [] behind fits'
    exact (readLength_outcome field limit_le before fits).bind items

end

end ClassLedger.Wire
