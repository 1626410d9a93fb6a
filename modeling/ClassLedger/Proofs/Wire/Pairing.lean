import ClassLedger.Record.Codec

/-!
# Reads of two inputs side by side

Two inputs that hold the same bytes give the same values and refuse the same lengths and texts, until one of them
cannot go on.  What happens then depends on the inputs, and so does what it means that they stand at the same place.
For two inputs paired in some such way it is enough that integers and texts are read alike: lengths, strings,
collections and records are read alike as well.
-/

namespace ClassLedger

/-- The bytes ended before all of what was asked for. -/
def DecodeError.isEnd : DecodeError → Bool
  | endOfInput _ => true
  | _ => false

namespace Wire

/-- What it means that two inputs stand at the same place, and with which errors, and where, reads of both give up. -/
structure Pairing (σ τ : Type) where
  level : σ → τ → Prop
  ended : DecodeError → σ → DecodeError → τ → Prop

namespace Pairing

variable {σ τ α β : Type}

/-- The two results agree: in the value or the refusal and in the place, unless both reads have given up. -/
inductive Agree (p : Pairing σ τ) : EStateM.Result DecodeError σ α → EStateM.Result DecodeError τ α → Prop where
  | ok {s : σ} {t : τ} (x : α) (level : p.level s t) : Agree p (.ok x s) (.ok x t)
  | refused {s : σ} {t : τ} {e : DecodeError} (notEnd : e.isEnd = false) (level : p.level s t) :
    Agree p (.error e s) (.error e t)
  | ended {s : σ} {t : τ} {e e' : DecodeError} (ended : p.ended e s e' t) : Agree p (.error e s) (.error e' t)

/-- From the same place both reads have results that agree. -/
def Alike (p : Pairing σ τ) (read : Read σ α) (read' : Read τ α) : Prop :=
  ∀ ⦃s : σ⦄ ⦃t : τ⦄, p.level s t → p.Agree (read s) (read' t)

section

variable {p : Pairing σ τ} {read : Read σ α} {read' : Read τ α} {next : α → Read σ β} {next' : α → Read τ β}

theorem alike_pure (x : α) : p.Alike (pure x) (pure x) := fun _ _ level => .ok x level

theorem alike_throw {e : DecodeError} (notEnd : e.isEnd = false) : p.Alike (throw e : Read σ α) (throw e) :=
  fun _ _ level => .refused notEnd level

/-- It is enough that the second reads agree after the values that the first one can give. -/
theorem Alike.bind (h : p.Alike read read') (h' : ∀ x ⦃s u⦄, read s = .ok x u → p.Alike (next x) (next' x)) :
    p.Alike (read >>= next) (read' >>= next') := by
  intro s t level
  have first := h level
  have second := fun x u (result : read s = .ok x u) => h' x result
  simp only [Bind.bind, EStateM.bind]
  generalize read s = result at first second ⊢
  generalize read' t = result' at first ⊢
  cases first with
  | ok x level => exact second x _ rfl level
  | refused notEnd level => exact .refused notEnd level
  | ended ended => exact .ended ended

theorem Alike.items (h : p.Alike read read') (count : Nat) (before : List α) :
    p.Alike (readItems read count before) (readItems read' count before) := by
  induction count generalizing before with
  | zero => exact alike_pure before.reverse
  | succ count ih => exact h.bind fun x _ _ _ => ih (x :: before)

end

/-- The two reads that an input offers are read alike. -/
structure ReadsAlike (p : Pairing σ τ) [Input σ] [Input τ] : Prop where
  int32 : ∀ context, p.Alike (Input.readInt32 context) (Input.readInt32 context)
  text : ∀ length field, p.Alike (Input.readText length field) (Input.readText length field)

namespace ReadsAlike

variable {p : Pairing σ τ} [Input σ] [Input τ] (alike : p.ReadsAlike)
include alike

theorem length (limit : Nat) (field : String) : p.Alike (readLength limit field) (readLength limit field) := by
  refine (alike.int32 field).bind fun length _ _ _ => ?_
  by_cases negative : length.toInt < 0
  · simp only [negative, ↓reduceIte]
    exact alike_throw rfl
  · by_cases beyond : limit < length.toInt.toNat
    · simp only [negative, beyond, ↓reduceIte]
      exact alike_throw rfl
    · simp only [negative, beyond, ↓reduceIte]
      exact alike_pure _

theorem string (field : String) : p.Alike (readString field) (readString field) :=
  (alike.length Limits.stringBytes field).bind fun length _ _ _ => alike.text length field

theorem collection {item : Read σ α} {item' : Read τ α} (limit : Nat) (field : String) (h : p.Alike item item') :
    p.Alike (readCollection limit field item) (readCollection limit field item') :=
  (alike.length limit field).bind fun count _ _ _ => h.items count []

theorem record : p.Alike Record.read Record.read := by
  have strings (field : String) : p.Alike (readCollection Limits.elements field (readString field))
      (readCollection Limits.elements field (readString field)) :=
    alike.collection _ field (alike.string field)
  refine (alike.int32 _).bind fun kind _ _ _ => ?_
  refine (alike.collection _ _ (alike.int32 _)).bind fun version _ _ _ => ?_
  refine (strings _).bind fun payload _ _ _ => ?_
  refine (strings _).bind fun table _ _ _ => ?_
  refine (alike.string _).bind fun extraText _ _ _ => ?_
  refine (alike.string _).bind fun packageName _ _ _ => ?_
  exact (alike.int32 _).bind fun extraFlags _ _ _ => alike_pure _

end ReadsAlike

end Pairing

end Wire

end ClassLedger
