import Mathlib.Data.List.Basic
import Mathlib.Order.Lattice
import Mathlib.Order.MinMax

namespace MesosPoc.OrderStatistic

variable {α : Type*} [LinearOrder α]

-- How many of the values are at most x.
def atMost (values : List α) (x : α) : Nat :=
  values.countP (· ≤ x)

theorem atMost_cons_le {a x : α} (h : a ≤ x) (values : List α) : atMost (a :: values) x = atMost values x + 1 :=
  List.countP_cons_of_pos (by simpa using h)

theorem atMost_eq_zero {a x : α} {values : List α} (hl : (a :: values).Pairwise (· ≤ ·)) (h : x < a) :
    atMost (a :: values) x = 0 := by
  apply List.countP_eq_zero.mpr
  intro y hy
  have hay : a ≤ y := by
    rcases List.mem_cons.mp hy with rfl | hy
    · exact le_refl y
    · exact (List.pairwise_cons.mp hl).1 y hy
  simpa using lt_of_lt_of_le h hay

-- The values at most x are the first ones.
theorem getElem_le_iff {values : List α} (hl : values.Pairwise (· ≤ ·)) (x : α) {k : Nat} (hk : k < values.length) :
    values[k] ≤ x ↔ k < atMost values x := by
  induction values generalizing k with
  | nil => cases hk
  | cons a values ih =>
      by_cases ha : a ≤ x
      · rw [atMost_cons_le ha]
        cases k with
        | zero => simpa using ha
        | succ k =>
            have hk' : k < values.length := by simpa using hk
            rw [List.getElem_cons_succ, ih hl.of_cons hk']
            omega
      · have hxa := lt_of_not_ge ha
        rw [atMost_eq_zero hl hxa]
        have hak : a ≤ (a :: values)[k] := by
          rcases List.mem_cons.mp (List.getElem_mem hk) with h | h
          · exact h.ge
          · exact (List.pairwise_cons.mp hl).1 _ h
        constructor
        · intro h
          exact absurd (le_trans hak h) ha
        · intro h
          omega

theorem lt_atMost {values : List α} (hl : values.Pairwise (· ≤ ·)) {k : Nat} (hk : k < values.length) :
    k < atMost values values[k] :=
  (getElem_le_iff hl _ hk).mp (le_refl _)

theorem atMost_perm {values others : List α} (h : values.Perm others) (x : α) : atMost values x = atMost others x :=
  h.countP_eq _

theorem le_last {values : List α} (hl : values.Pairwise (· ≤ ·)) {k : Nat} (hk : k + 1 = values.length) :
    ∀ x ∈ values, x ≤ values[k] := by
  have hall : atMost values values[k] = values.length := by
    have h := lt_atMost hl (show k < values.length by omega)
    have hle : atMost values values[k] ≤ values.length := List.countP_le_length
    omega
  intro x hx
  simpa using List.countP_eq_length.mp hall x hx

-- The value at a rank covers one more than its rank unless the values can be cut there.
theorem succ_lt_atMost_iff {values : List α} (hl : values.Pairwise (· ≤ ·)) {k : Nat} (hk : k + 1 < values.length) :
    k + 1 < atMost values values[k] ↔ ∀ x ∈ values, atMost values x ≠ k + 1 := by
  constructor
  · intro h x _ hx
    have hfirst : values[k] ≤ x := (getElem_le_iff hl x (by omega)).mpr (by omega)
    have hsecond : values[k + 1] ≤ values[k] := (getElem_le_iff hl _ hk).mpr h
    have hbelow := (getElem_le_iff hl x hk).mp (le_trans hsecond hfirst)
    omega
  · intro h
    have hne := h values[k] (List.getElem_mem _)
    have hlt := lt_atMost hl (show k < values.length by omega)
    omega

-- The value at a rank that is rounded down covers the whole share if nothing is
-- rounded, or if no value cuts the values at the rank.
theorem share_covered_iff {values : List α} (hl : values.Pairwise (· ≤ ·)) {share parts : Nat} (hparts : 0 < parts)
    (hshare : share ≤ parts * values.length) (hpos : 0 < share / parts)
    (hk : share / parts - 1 < values.length) :
    share ≤ parts * atMost values values[share / parts - 1] ↔
      share % parts = 0 ∨ ∀ x ∈ values, atMost values x ≠ share / parts := by
  have hdivision := Nat.div_add_mod share parts
  have hrest := Nat.mod_lt share hparts
  have hcovered := lt_atMost hl hk
  generalize hcount : atMost values values[share / parts - 1] = count at hcovered
  obtain ⟨k, hrank⟩ : ∃ k, share / parts = k + 1 := ⟨share / parts - 1, by omega⟩
  simp only [hrank, Nat.add_sub_cancel] at hcount hcovered hdivision hk ⊢
  by_cases hexact : share % parts = 0
  · have hle : parts * (k + 1) ≤ parts * count := Nat.mul_le_mul_left parts hcovered
    simp only [hexact, true_or, iff_true]
    omega
  · have hlt : k + 1 < values.length := by
      by_contra hnot
      have hle : parts * values.length ≤ parts * (k + 1) := Nat.mul_le_mul_left parts (by omega)
      omega
    rw [← succ_lt_atMost_iff hl hlt, hcount]
    simp only [hexact, false_or]
    constructor
    · intro h
      by_contra hnot
      have hle : parts * count ≤ parts * (k + 1) := Nat.mul_le_mul_left parts (by omega)
      omega
    · intro h
      have hle : parts * (k + 1 + 1) ≤ parts * count := Nat.mul_le_mul_left parts h
      rw [Nat.mul_add_one] at hle
      omega

end MesosPoc.OrderStatistic
