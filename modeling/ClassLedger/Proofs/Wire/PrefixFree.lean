import ClassLedger.Proofs.Wire.Form

/-!
# Forms end where they end

No byte form is the beginning of another one, as long as its lengths fit four bytes: where two of them stand at the
beginning of the same bytes, the values are equal and so is what comes behind (`PrefixFree`).  This is a property of
the forms alone; the limits of a reader play no part in it.
-/

namespace ClassLedger.Wire

/-- Forms at the beginning of the same bytes belong to the same value. -/
def PrefixFree {α : Type} (form : α → List UInt8) (fits : α → Prop) : Prop :=
  ∀ {x y : α} {a b : List UInt8}, fits x → fits y → form x ++ a = form y ++ b → x = y ∧ a = b

theorem bigEndian_injective {v w : Int32} (h : bigEndian v = bigEndian w) : v = w := by
  obtain ⟨a, b, c, d, bytes, rfl⟩ := ofBigEndian_bigEndian v
  obtain ⟨a', b', c', d', bytes', rfl⟩ := ofBigEndian_bigEndian w
  rw [bytes, bytes'] at h
  simp only [List.cons.injEq, and_true] at h
  obtain ⟨rfl, rfl, rfl, rfl⟩ := h
  rfl

theorem prefixFree_int32 : PrefixFree bigEndian fun _ => True := by
  intro v w a b _ _ h
  obtain ⟨same, rest⟩ := List.append_inj h rfl
  exact ⟨bigEndian_injective same, rest⟩

theorem prefixFree_length : PrefixFree lengthForm (· ≤ Limits.prefixValue) := by
  intro n m a b hn hm h
  obtain ⟨same, rest⟩ := prefixFree_int32 trivial trivial h
  have := congrArg Int32.toInt same
  rw [toInt_ofNat_of_fits hn, toInt_ofNat_of_fits hm] at this
  exact ⟨Int.natCast_inj.1 this, rest⟩

theorem prefixFree_string : PrefixFree stringForm (·.utf8ByteSize ≤ Limits.prefixValue) := by
  intro s t a b hs ht h
  simp only [stringForm, List.append_assoc] at h
  obtain ⟨size, texts⟩ := prefixFree_length hs ht h
  obtain ⟨text, rest⟩ := List.append_inj texts (by rw [Text.length_utf8, Text.length_utf8, size])
  have := congrArg Text.ofUtf8? text
  rw [Text.ofUtf8?_utf8, Text.ofUtf8?_utf8] at this
  exact ⟨Option.some.inj this, rest⟩

section

variable {α : Type} {form : α → List UInt8} {fits : α → Prop}

theorem PrefixFree.flatMap (h : PrefixFree form fits) {xs ys : List α} {a b : List UInt8}
    (hx : ∀ x ∈ xs, fits x) (hy : ∀ y ∈ ys, fits y) (length : xs.length = ys.length)
    (same : xs.flatMap form ++ a = ys.flatMap form ++ b) : xs = ys ∧ a = b := by
  induction xs generalizing ys with
  | nil =>
    obtain rfl := List.eq_nil_of_length_eq_zero length.symm
    exact ⟨rfl, same⟩
  | cons x xs ih =>
    cases ys with
    | nil => cases length
    | cons y ys =>
      obtain ⟨firstX, restX⟩ := List.forall_mem_cons.1 hx
      obtain ⟨firstY, restY⟩ := List.forall_mem_cons.1 hy
      simp only [List.flatMap_cons, List.append_assoc] at same
      obtain ⟨rfl, others⟩ := h firstX firstY same
      obtain ⟨rfl, rest⟩ := ih restX restY (Nat.succ.inj length) others
      exact ⟨rfl, rest⟩

theorem PrefixFree.list (h : PrefixFree form fits) :
    PrefixFree (listForm form) fun xs => xs.length ≤ Limits.prefixValue ∧ ∀ x ∈ xs, fits x := by
  intro xs ys a b hx hy same
  simp only [listForm, List.append_assoc] at same
  obtain ⟨length, same⟩ := prefixFree_length hx.1 hy.1 same
  exact h.flatMap hx.2 hy.2 length same

end

end ClassLedger.Wire
