import Mathlib.Data.List.Basic

namespace Lib.Except

universe u v
variable {ε : Type u} {α β : Type v}

theorem bind_eq_ok (result : Except ε α) (next : α → Except ε β) (b : β) :
    (result >>= next) = .ok b ↔ ∃ a, result = .ok a ∧ next a = .ok b := by
  cases result <;> simp [bind, Except.bind]

theorem pure_eq_ok (a b : α) : (pure a : Except ε α) = .ok b ↔ a = b := by
  simp [pure, Except.pure]

theorem map_eq_ok (result : Except ε α) (f : α → β) (b : β) :
    result.map f = .ok b ↔ ∃ a, result = .ok a ∧ f a = b := by
  cases result <;> simp [Except.map]

theorem not_exists_ok {e : ε} : ¬ ∃ a, (.error e : Except ε α) = .ok a := by
  rintro ⟨_, ⟨⟩⟩

end Lib.Except
