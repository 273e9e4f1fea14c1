import Mathlib.Order.Lattice
import Mathlib.Order.MinMax
import Mathlib.Data.List.Basic

namespace MesosPoc.RunningMax

variable {α : Type} [LinearOrder α]

-- The greatest of a start value and of the values seen after it.
def greatest (start : α) (values : List α) : α :=
  values.foldl max start

@[simp] theorem greatest_nil (start : α) : greatest start [] = start := rfl

@[simp] theorem greatest_cons (start a : α) (values : List α) :
    greatest start (a :: values) = greatest (max start a) values := rfl

-- The test by which a loop keeps the greater of two values.
theorem ite_lt_eq_max (a b : α) : (if a < b then b else a) = max a b :=
  (max_def_lt a b).symm

theorem greatest_le_iff (start bound : α) (values : List α) :
    greatest start values ≤ bound ↔ start ≤ bound ∧ ∀ a ∈ values, a ≤ bound := by
  induction values generalizing start with
  | nil => simp
  | cons a rest ih =>
      rw [greatest_cons, ih, max_le_iff, List.forall_mem_cons, and_assoc]

theorem greatest_lt_iff (start bound : α) (values : List α) :
    greatest start values < bound ↔ start < bound ∧ ∀ a ∈ values, a < bound := by
  induction values generalizing start with
  | nil => simp
  | cons a rest ih =>
      rw [greatest_cons, ih, max_lt_iff, List.forall_mem_cons, and_assoc]

theorem start_le_greatest (start : α) (values : List α) : start ≤ greatest start values :=
  ((greatest_le_iff start _ values).mp le_rfl).1

theorem le_greatest (start a : α) (values : List α) (ha : a ∈ values) : a ≤ greatest start values :=
  ((greatest_le_iff start _ values).mp le_rfl).2 a ha

theorem greatest_mem (start : α) (values : List α) :
    greatest start values = start ∨ greatest start values ∈ values := by
  induction values generalizing start with
  | nil => exact Or.inl rfl
  | cons a rest ih =>
      rw [greatest_cons]
      rcases ih (max start a) with h | h
      · rw [h]
        rcases max_choice start a with hm | hm
        · exact Or.inl hm
        · rw [hm]
          exact Or.inr List.mem_cons_self
      · exact Or.inr (List.mem_cons_of_mem a h)

-- Above a least start value the greatest is one of the values.
theorem greatest_mem_of_ne_nil (start : α) (values : List α) (hstart : ∀ a, start ≤ a)
    (hne : values ≠ []) : greatest start values ∈ values := by
  rcases greatest_mem start values with h | h
  · obtain ⟨a, ha⟩ := List.exists_mem_of_ne_nil values hne
    have hle : a ≤ start := h ▸ le_greatest start a values ha
    have heq : a = start := le_antisymm hle (hstart a)
    rw [h, ← heq]
    exact ha
  · exact h

theorem greatest_map {β : Type} [LinearOrder β] (f : α → β) (hf : Monotone f) (start : α)
    (values : List α) : greatest (f start) (values.map f) = f (greatest start values) := by
  induction values generalizing start with
  | nil => rfl
  | cons a rest ih => rw [List.map_cons, greatest_cons, greatest_cons, ← hf.map_max, ih]

-- Above a least start value the greatest is the one value that bounds the others.
theorem greatest_eq_of_mem (start a : α) (values : List α) (hstart : ∀ b, start ≤ b) (ha : a ∈ values)
    (hle : ∀ b ∈ values, b ≤ a) : greatest start values = a :=
  le_antisymm ((greatest_le_iff start a values).mpr ⟨hstart a, hle⟩) (le_greatest start a values ha)

theorem greatest_perm (start : α) {values others : List α} (h : values.Perm others) :
    greatest start values = greatest start others := by
  have hmem : ∀ a, a ∈ values ↔ a ∈ others := fun a => h.mem_iff
  apply le_antisymm
  · refine (greatest_le_iff start _ values).mpr ⟨start_le_greatest start others, ?_⟩
    intro a ha
    exact le_greatest start a others ((hmem a).mp ha)
  · refine (greatest_le_iff start _ others).mpr ⟨start_le_greatest start values, ?_⟩
    intro a ha
    exact le_greatest start a values ((hmem a).mpr ha)

end MesosPoc.RunningMax
