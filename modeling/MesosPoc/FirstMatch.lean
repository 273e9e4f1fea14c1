import Mathlib.Data.List.TakeWhile

namespace MesosPoc.FirstMatch

variable {α : Type*} [DecidableEq α]

-- The rules tried before the one for a key that accept the same request.
def shadowing (accepts : α → Bool) (key : α) (rules : List α) : List α :=
  (rules.takeWhile (· != key)).filter accepts

theorem takeWhile_ne_of_notMem (key : α) (rules : List α) (hn : key ∉ rules) :
    rules.takeWhile (· != key) = rules := by
  rw [List.takeWhile_eq_self_iff]
  intro rule hr
  have hne : rule ≠ key := by rintro rfl; exact hn hr
  simpa using hne

-- With no rule of its own a key goes to the first rule that shadows it.
theorem find?_of_notMem (accepts : α → Bool) (key : α) (rules : List α) (hn : key ∉ rules) :
    rules.find? accepts = (shadowing accepts key rules).head? := by
  rw [shadowing, takeWhile_ne_of_notMem key rules hn, List.head?_filter]

theorem find?_of_mem (accepts : α → Bool) (key : α) (rules : List α) (ha : accepts key)
    (hm : key ∈ rules) :
    rules.find? accepts = (shadowing accepts key rules).head?.or (some key) := by
  induction rules with
  | nil => simp at hm
  | cons rule rest ih =>
      by_cases he : rule = key
      · subst rule
        simp [shadowing, ha]
      · have hmem : key ∈ rest := (List.mem_cons.mp hm).resolve_left (Ne.symm he)
        have hne : (rule != key) = true := by simpa using he
        simp only [shadowing, List.takeWhile_cons, hne, ite_true] at ih ⊢
        by_cases hr : accepts rule
        · simp [hr]
        · simp only [List.find?_cons, List.filter_cons, hr, ih hmem]
          simp

-- A key is served by its own rule when nothing tried before it accepts it.
theorem find?_eq_key_iff (accepts : α → Bool) (key : α) (rules : List α) (ha : accepts key)
    (hm : key ∈ rules) :
    rules.find? accepts = some key ↔ shadowing accepts key rules = [] := by
  rw [find?_of_mem accepts key rules ha hm]
  cases hs : shadowing accepts key rules with
  | nil => simp
  | cons first more =>
      have hf : first ∈ shadowing accepts key rules := by simp [hs]
      have hne : first ≠ key := by
        have ht := List.mem_takeWhile_imp (List.mem_filter.mp hf).1
        simpa using ht
      simpa using hne

end MesosPoc.FirstMatch
