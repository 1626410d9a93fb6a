import Mathlib.Data.List.Induction

/-!
# Lists that grow at the end

What is read from left to right is best followed as one more item comes to the end.  A place in the longer list is
either the new one or a place in the list before, and a fold that can fail goes from the items before to the new one.
-/

namespace ClassLedger

variable {α ε δ : Type} {items before after : List α} {x a : α}

theorem concat_eq_append_cons_iff : items ++ [a] = before ++ x :: after ↔
    (items = before ∧ a = x ∧ after = []) ∨ ∃ rest, after = rest ++ [a] ∧ items = before ++ x :: rest := by
  constructor
  · intro split
    rcases List.eq_nil_or_concat after with rfl | ⟨rest, last, rfl⟩
    · obtain ⟨same, last⟩ := List.append_inj' split rfl
      exact .inl ⟨same, List.singleton_inj.1 last, rfl⟩
    · rw [List.concat_eq_append] at split ⊢
      have split : items ++ [a] = (before ++ x :: rest) ++ [last] := by simpa using split
      obtain ⟨same, last⟩ := List.append_inj' split rfl
      obtain rfl := List.singleton_inj.1 last
      exact .inr ⟨rest, rfl, same⟩
  · rintro (⟨rfl, rfl, rfl⟩ | ⟨rest, rfl, rfl⟩)
    · rfl
    · simp

theorem except_bind_eq_ok_iff {β γ : Type} {first : Except ε β} {next : β → Except ε γ} {z : γ} :
    (first >>= next) = .ok z ↔ ∃ y, first = .ok y ∧ next y = .ok z := by
  cases first <;> simp [bind, Except.bind]

theorem except_map_eq_ok_iff {β γ : Type} {first : Except ε β} {put : β → γ} {z : γ} :
    (do return put (← first)) = .ok z ↔ ∃ y, first = .ok y ∧ z = put y := by
  rw [except_bind_eq_ok_iff]
  refine exists_congr fun y => and_congr_right fun _ => ?_
  show Except.ok (put y) = .ok z ↔ z = put y
  rw [Except.ok.injEq, eq_comm]

theorem except_bind_eq_error_iff {β γ : Type} {first : Except ε β} {next : β → Except ε γ} {e : ε} :
    (first >>= next) = .error e ↔ first = .error e ∨ ∃ y, first = .ok y ∧ next y = .error e := by
  cases first <;> simp [bind, Except.bind]

theorem except_map_eq_error_iff {β γ : Type} {first : Except ε β} {put : β → γ} {e : ε} :
    (do return put (← first)) = .error e ↔ first = .error e := by
  rw [except_bind_eq_error_iff, or_iff_left]
  rintro ⟨y, -, failed⟩
  cases failed

/-- A fold that succeeds is followed by another one, if each step of it is. -/
theorem foldlM_lift {δ' : Type} {take : δ → α → Except ε δ} {take' : δ' → α → Except ε δ'} {d e : δ} (put : δ → δ')
    (h : ∀ a ∈ items, ∀ d d', take d a = .ok d' → take' (put d) a = .ok (put d'))
    (ok : items.foldlM take d = .ok e) : items.foldlM take' (put d) = .ok (put e) := by
  induction items generalizing d with
  | nil =>
    obtain rfl := Except.ok.inj ok
    rfl
  | cons a rest ih =>
    rw [List.foldlM_cons] at ok ⊢
    obtain ⟨d', first, others⟩ := except_bind_eq_ok_iff.1 ok
    rw [h a List.mem_cons_self d d' first]
    exact ih (fun b hb => h b (List.mem_cons_of_mem _ hb)) others

/-- If each step leads from what stands for the items before to what stands for them and the new one, exactly where the
new one is admitted, then the fold gives what stands for all items, exactly where all of them are admitted. -/
theorem foldlM_eq_ok_iff {take : δ → α → Except ε δ} {state : List α → δ} {holds : List α → Prop}
    {admits : List α → α → Prop} (start : holds [])
    (concat : ∀ before a, holds (before ++ [a]) ↔ holds before ∧ admits before a)
    (step : ∀ before a d, holds before → (take (state before) a = .ok d ↔ admits before a ∧ d = state (before ++ [a])))
    (d : δ) : items.foldlM take (state []) = .ok d ↔ holds items ∧ d = state items := by
  induction items using List.reverseRecOn generalizing d with
  | nil =>
    show Except.ok (state []) = .ok d ↔ _
    rw [Except.ok.injEq, eq_comm]
    exact (and_iff_right start).symm
  | append_singleton before a ih =>
    have single (d' : δ) : [a].foldlM take d' = take d' a := by
      cases h : take d' a <;> simp [List.foldlM, h, bind, Except.bind, pure, Except.pure]
    rw [List.foldlM_append, except_bind_eq_ok_iff, concat]
    constructor
    · rintro ⟨d', ok, last⟩
      obtain ⟨held, rfl⟩ := (ih d').1 ok
      rw [single, step before a d held] at last
      exact ⟨⟨held, last.1⟩, last.2⟩
    · rintro ⟨⟨held, admitted⟩, rfl⟩
      refine ⟨state before, (ih _).2 ⟨held, rfl⟩, ?_⟩
      rw [single]
      exact (step before a _ held).2 ⟨admitted, rfl⟩

/-- A fold fails with the first step that fails. -/
theorem foldlM_eq_error_iff {take : δ → α → Except ε δ} {start : δ} {e : ε} : items.foldlM take start = .error e ↔
    ∃ before a after d, items = before ++ a :: after ∧ before.foldlM take start = .ok d ∧ take d a = .error e := by
  induction items generalizing start with
  | nil =>
    refine iff_of_false nofun ?_
    rintro ⟨before, a, after, d, split, -⟩
    simp at split
  | cons x rest ih =>
    rw [List.foldlM_cons, except_bind_eq_error_iff]
    simp only [ih]
    constructor
    · rintro (failed | ⟨d, first, before, a, after, d', rfl, ok, failed⟩)
      · exact ⟨[], x, rest, start, rfl, rfl, failed⟩
      · refine ⟨x :: before, a, after, d', rfl, ?_, failed⟩
        rw [List.foldlM_cons, first]
        exact ok
    · rintro ⟨before, a, after, d, split, ok, failed⟩
      cases before with
      | nil =>
        obtain ⟨rfl, rfl⟩ := List.cons.inj split
        obtain rfl := Except.ok.inj ok
        exact .inl failed
      | cons y before =>
        obtain ⟨rfl, rfl⟩ := List.cons.inj split
        rw [List.foldlM_cons, except_bind_eq_ok_iff] at ok
        obtain ⟨d', first, ok⟩ := ok
        exact .inr ⟨d', first, before, a, after, d, rfl, ok, failed⟩

end ClassLedger
