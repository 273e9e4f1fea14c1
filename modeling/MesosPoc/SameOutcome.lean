import Mathlib.Data.List.Forall2

namespace MesosPoc

-- Two computations that raise the same, or return values that belong together.
inductive SameOutcome {ε α β : Type} (R : α → β → Prop) : Except ε α → Except ε β → Prop
  | error (e : ε) : SameOutcome R (.error e) (.error e)
  | ok {a : α} {b : β} (h : R a b) : SameOutcome R (.ok a) (.ok b)

namespace SameOutcome

variable {ε α β γ δ : Type} {R : α → β → Prop} {S : γ → δ → Prop}

theorem refl (x : Except ε α) : SameOutcome Eq x x := by
  cases x with
  | error e => exact .error e
  | ok a => exact .ok rfl

theorem bind {x : Except ε α} {y : Except ε β} {f : α → Except ε γ} {g : β → Except ε δ} (h : SameOutcome R x y)
    (hnext : ∀ a b, R a b → SameOutcome S (f a) (g b)) : SameOutcome S (x >>= f) (y >>= g) := by
  cases h with
  | error e => exact .error e
  | ok hab => exact hnext _ _ hab

theorem bind_eq {x y : Except ε α} {f : α → Except ε γ} {g : α → Except ε δ} (h : SameOutcome Eq x y)
    (hnext : ∀ a, SameOutcome S (f a) (g a)) : SameOutcome S (x >>= f) (y >>= g) := by
  apply h.bind
  rintro a b rfl
  exact hnext a

end SameOutcome

end MesosPoc
