import Mathlib

/-!
# Steps of a run

A run that ends with a result went through all its steps, and one that fails went through the steps
before the failing one. Each lemma takes the first step off.
-/

namespace ResourceModels

theorem bind_eq_ok {ε α β : Type} {first : Except ε α} {next : α → Except ε β} {result : β}
    (success : (first >>= next) = .ok result) :
    ∃ value, first = .ok value ∧ next value = .ok result := by
  cases first with
  | error error => cases success
  | ok value => exact ⟨value, rfl, success⟩

/-- A last step that cannot fail only changes the result. -/
theorem bind_ok_eq_map {ε α β : Type} (first : Except ε α) (change : α → β) :
    (first >>= fun value => Except.ok (change value)) = first.map change := by
  cases first <;> rfl

theorem map_eq_ok {ε α β : Type} {first : Except ε α} {change : α → β} {result : β}
    (success : first.map change = .ok result) :
    ∃ value, first = .ok value ∧ change value = result := by
  cases first with
  | error error => cases success
  | ok value => exact ⟨value, rfl, Except.ok.inj success⟩

theorem bind_eq_error {ε α β : Type} {first : Except ε α} {next : α → Except ε β} {error : ε}
    (failure : (first >>= next) = .error error) :
    first = .error error ∨ ∃ value, first = .ok value ∧ next value = .error error := by
  cases first with
  | error other => exact .inl (congrArg Except.error (Except.error.inj failure))
  | ok value => exact .inr ⟨value, rfl, failure⟩

theorem map_eq_error {ε α β : Type} {first : Except ε α} {change : α → β} {error : ε}
    (failure : first.map change = .error error) : first = .error error := by
  cases first with
  | error other => exact congrArg Except.error (Except.error.inj failure)
  | ok value => cases failure

theorem mapError_eq_ok {ε ε' α : Type} {first : Except ε α} {change : ε → ε'} {result : α}
    (success : first.mapError change = .ok result) : first = .ok result := by
  cases first with
  | error error => cases success
  | ok value => exact congrArg Except.ok (Except.ok.inj success)

theorem toOption_eq_some_iff {ε α : Type} {first : Except ε α} {result : α} :
    first.toOption = some result ↔ first = .ok result := by
  cases first <;> simp [Except.toOption]

theorem run_bind_eq {σ α β : Type} {first : StateM σ α} {next : α → StateM σ β} {world later : σ}
    {result : β} (ran : (first >>= next).run world = (result, later)) :
    ∃ value between, first.run world = (value, between) ∧
      (next value).run between = (result, later) :=
  ⟨(first.run world).1, (first.run world).2, rfl, ran⟩

theorem run_bind_of {m : Type → Type} [Monad m] [LawfulMonad m] {σ α β : Type}
    {first : StateT σ m α} {world between : σ} {value : α}
    (ran : first.run world = pure (value, between)) (next : α → StateT σ m β) :
    (first >>= next).run world = (next value).run between := by
  rw [StateT.run_bind, ran, pure_bind]

end ResourceModels
