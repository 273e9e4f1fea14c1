import Mathlib.Data.Finset.Card
import Mathlib.Data.Finset.Powerset

namespace MesosPoc

variable {α : Type*} [DecidableEq α]

-- A number of members that can be reached and is more than half of them.
def Majority (members : Finset α) (q : Nat) : Prop :=
  q ≤ members.card ∧ members.card < 2 * q

-- A part of the members that reaches the number.
def IsQuorum (members : Finset α) (q : Nat) (part : Finset α) : Prop :=
  part ⊆ members ∧ q ≤ part.card

omit [DecidableEq α] in
theorem exists_isQuorum_iff (members : Finset α) (q : Nat) :
    (∃ part, IsQuorum members q part) ↔ q ≤ members.card := by
  constructor
  · rintro ⟨part, hpart, hq⟩
    exact le_trans hq (Finset.card_le_card hpart)
  · intro h
    exact ⟨members, Finset.Subset.refl members, h⟩

theorem quorums_meet {members : Finset α} {q : Nat} (h : members.card < 2 * q) {A B : Finset α}
    (hA : IsQuorum members q A) (hB : IsQuorum members q B) : (A ∩ B).Nonempty := by
  have hcount := Finset.card_union_add_card_inter A B
  have hunion : (A ∪ B).card ≤ members.card := Finset.card_le_card (Finset.union_subset hA.1 hB.1)
  have hA' := hA.2
  have hB' := hB.2
  apply Finset.card_pos.mp
  omega

-- Two quorums apart from each other, where a quorum is no more than a half.
theorem exists_quorums_apart {members : Finset α} {q : Nat} (h : 2 * q ≤ members.card) :
    ∃ A B, IsQuorum members q A ∧ IsQuorum members q B ∧ A ∩ B = ∅ := by
  obtain ⟨A, hA, hcard⟩ := Finset.exists_subset_card_eq (show q ≤ members.card by omega)
  have hrest : (members \ A).card = members.card - q := by
    rw [Finset.card_sdiff_of_subset hA, hcard]
  refine ⟨A, members \ A, ⟨hA, hcard.ge⟩, ⟨Finset.sdiff_subset, ?_⟩, ?_⟩
  · omega
  · exact Finset.inter_sdiff_self A members

theorem majority_iff (members : Finset α) (q : Nat) :
    Majority members q ↔ (∃ part, IsQuorum members q part) ∧
      ∀ A B, IsQuorum members q A → IsQuorum members q B → (A ∩ B).Nonempty := by
  rw [exists_isQuorum_iff]
  unfold Majority
  constructor
  · rintro ⟨hreached, hmost⟩
    exact ⟨hreached, fun A B hA hB => quorums_meet hmost hA hB⟩
  · rintro ⟨hreached, hmeet⟩
    refine ⟨hreached, ?_⟩
    by_contra hhalf
    obtain ⟨A, B, hA, hB, hempty⟩ := exists_quorums_apart (show 2 * q ≤ members.card by omega)
    have hinter := hmeet A B hA hB
    rw [hempty] at hinter
    exact Finset.not_nonempty_empty hinter

end MesosPoc
