import Mathlib.Data.List.Infix

namespace MesosPoc.Replace

variable {α : Type} [DecidableEq α]

-- Every occurrence of a text replaced by another, from left to right. The number
-- counts the items of an occurrence that are still to be passed over.
def replaceFrom (old new : List α) : Nat → List α → List α
  | _, [] => []
  | skip + 1, _ :: rest => replaceFrom old new skip rest
  | 0, a :: rest =>
      if old <+: a :: rest then new ++ replaceFrom old new (old.length - 1) rest
      else a :: replaceFrom old new 0 rest

-- The text to be replaced is not empty.
def replaceAll (old new s : List α) : List α :=
  replaceFrom old new 0 s

section Occurrences

variable (old new : List α)

@[simp] theorem replaceAll_nil : replaceAll old new [] = [] := rfl

theorem replaceFrom_drop (skip : Nat) (s : List α) :
    replaceFrom old new skip s = replaceAll old new (s.drop skip) := by
  induction s generalizing skip with
  | nil =>
      rw [List.drop_nil]
      cases skip <;> rfl
  | cons a rest ih =>
      cases skip with
      | zero => rfl
      | succ skip => exact ih skip

theorem replaceAll_cons_of_no_occurrence (a : α) (rest : List α) (h : ¬old <+: a :: rest) :
    replaceAll old new (a :: rest) = a :: replaceAll old new rest := by
  rw [replaceAll, replaceFrom, if_neg h]
  rfl

theorem replaceAll_old_append (hold : old ≠ []) (rest : List α) :
    replaceAll old new (old ++ rest) = new ++ replaceAll old new rest := by
  cases old with
  | nil => exact absurd rfl hold
  | cons a tail =>
      have hprefix : a :: tail <+: a :: (tail ++ rest) := List.prefix_append _ _
      rw [List.cons_append, replaceAll, replaceFrom, if_pos hprefix, replaceFrom_drop, List.length_cons,
        Nat.add_sub_cancel, List.drop_left]

-- What stands before every occurrence stays.
theorem replaceAll_append_of_late (x y : List α)
    (h : ∀ before after, x ++ y = before ++ old ++ after → x.length ≤ before.length) :
    replaceAll old new (x ++ y) = x ++ replaceAll old new y := by
  induction x with
  | nil => rfl
  | cons a x ih =>
      have hnot : ¬old <+: a :: (x ++ y) := by
        rintro ⟨after, hafter⟩
        have hlen := h [] after hafter.symm
        rw [List.length_cons, List.length_nil] at hlen
        omega
      rw [List.cons_append, replaceAll_cons_of_no_occurrence old new a _ hnot, ih]
      · rfl
      · intro before after hxy
        have hlen := h (a :: before) after (by rw [List.cons_append, hxy]; rfl)
        simpa using hlen

theorem replaceAll_of_not_infix (s : List α) (h : ¬old <:+: s) : replaceAll old new s = s := by
  have hlate := replaceAll_append_of_late old new s [] (by
    intro before after hs
    exact absurd ⟨before, after, by rw [← hs, List.append_nil]⟩ h)
  simpa using hlate

theorem replaceAll_self (hold : old ≠ []) (s : List α) : replaceAll old old s = s := by
  have hlen : 0 < old.length := List.length_pos_of_ne_nil hold
  induction hn : s.length using Nat.strong_induction_on generalizing s with
  | _ n ih =>
      cases s with
      | nil => rfl
      | cons a rest =>
          rw [List.length_cons] at hn
          by_cases hprefix : old <+: a :: rest
          · obtain ⟨after, hafter⟩ := hprefix
            have hlength := congrArg List.length hafter
            rw [List.length_append, List.length_cons] at hlength
            rw [← hafter, replaceAll_old_append old old hold, ih after.length (by omega) after rfl]
          · rw [replaceAll_cons_of_no_occurrence old old a rest hprefix, ih rest.length (by omega) rest rfl]

theorem length_replaceAll (hold : old ≠ []) (s : List α) :
    (old.length ≤ new.length → s.length ≤ (replaceAll old new s).length) ∧
      (new.length ≤ old.length → (replaceAll old new s).length ≤ s.length) := by
  have hlen : 0 < old.length := List.length_pos_of_ne_nil hold
  induction hn : s.length using Nat.strong_induction_on generalizing s with
  | _ n ih =>
      cases s with
      | nil => simp at hn ⊢; omega
      | cons a rest =>
          rw [List.length_cons] at hn
          by_cases hprefix : old <+: a :: rest
          · obtain ⟨after, hafter⟩ := hprefix
            have hlength := congrArg List.length hafter
            rw [List.length_append, List.length_cons] at hlength
            obtain ⟨hmore, hless⟩ := ih after.length (by omega) after rfl
            rw [← hafter, replaceAll_old_append old new hold, List.length_append]
            omega
          · obtain ⟨hmore, hless⟩ := ih rest.length (by omega) rest rfl
            rw [replaceAll_cons_of_no_occurrence old new a rest hprefix, List.length_cons]
            omega

-- Replacing a text that occurs by another changes the whole.
theorem replaceAll_ne (hold : old ≠ []) (hnew : new ≠ old) (s : List α) (h : old <:+: s) :
    replaceAll old new s ≠ s := by
  induction s with
  | nil => exact absurd (List.infix_nil.mp h) hold
  | cons a rest ih =>
      by_cases hprefix : old <+: a :: rest
      · obtain ⟨after, hafter⟩ := hprefix
        rw [← hafter, replaceAll_old_append old new hold]
        intro heq
        have hlength := congrArg List.length heq
        rw [List.length_append, List.length_append] at hlength
        obtain ⟨hmore, hless⟩ := length_replaceAll old new hold after
        have hsame : new.length = old.length := by omega
        exact hnew (List.append_inj_left heq hsame)
      · rw [replaceAll_cons_of_no_occurrence old new a rest hprefix]
        intro heq
        have hrest : old <:+: rest := by
          rcases List.infix_cons_iff.mp h with hp | hi
          · exact absurd hp hprefix
          · exact hi
        exact ih hrest (List.cons.inj heq).2

theorem replaceAll_singleton (a : α) (new s : List α) :
    replaceAll [a] new s = s.flatMap fun b => if b = a then new else [b] := by
  induction s with
  | nil => rfl
  | cons b s ih =>
      rw [List.flatMap_cons]
      by_cases h : b = a
      · rw [if_pos h, h, ← ih]
        exact replaceAll_old_append [a] new (List.cons_ne_nil _ _) s
      · have hnot : ¬[a] <+: b :: s := by
          rintro ⟨rest, hrest⟩
          exact h (List.cons.inj hrest).1.symm
        rw [if_neg h, replaceAll_cons_of_no_occurrence [a] new b s hnot, ih]
        rfl

-- A text that no occurrence of another overlaps, wherever it is put.
def Separate (inner old : List α) : Prop :=
  ∀ left right before after, left ++ inner ++ right = before ++ old ++ after →
    before.length + old.length ≤ left.length ∨ left.length + inner.length ≤ before.length

-- A text that shares no item with another one.
omit [DecidableEq α] in
theorem separate_of_disjoint (hold : old ≠ []) (inner : List α) (hinner : inner ≠ []) (h : ∀ a ∈ inner, a ∉ old) :
    Separate inner old := by
  intro left right before after heq
  by_contra hover
  push Not at hover
  have hpos : 0 < inner.length := List.length_pos_of_ne_nil hinner
  have hpos' : 0 < old.length := List.length_pos_of_ne_nil hold
  have hk : max left.length before.length - left.length < inner.length := by omega
  have hk' : max left.length before.length - before.length < old.length := by omega
  have hinnerItem : (left ++ inner ++ right)[max left.length before.length]? =
      some inner[max left.length before.length - left.length] := by
    rw [List.append_assoc, List.getElem?_append_right (by omega), List.getElem?_append_left hk,
      List.getElem?_eq_getElem hk]
  have holdItem : (before ++ old ++ after)[max left.length before.length]? =
      some old[max left.length before.length - before.length] := by
    rw [List.append_assoc, List.getElem?_append_right (by omega), List.getElem?_append_left hk',
      List.getElem?_eq_getElem hk']
  rw [heq, holdItem] at hinnerItem
  have hsame := Option.some.inj hinnerItem
  apply h _ (List.getElem_mem hk)
  rw [← hsame]
  exact List.getElem_mem hk'

theorem disjoint_of_all (inner : List α) (h : (inner.all fun a => !old.contains a) = true) : ∀ a ∈ inner, a ∉ old := by
  intro a ha
  simpa using List.all_eq_true.mp h a ha

omit [DecidableEq α] in
theorem infix_of_append_le (left right before after : List α) (h : left ++ right = before ++ old ++ after)
    (hlen : before.length + old.length ≤ left.length) : old <:+: left := by
  have hprefix : before ++ old <+: left := by
    have hwhole : before ++ old <+: left ++ right := ⟨after, h.symm⟩
    apply List.prefix_of_prefix_length_le hwhole (List.prefix_append left right)
    rw [List.length_append]
    exact hlen
  obtain ⟨rest, hrest⟩ := hprefix
  exact ⟨before, rest, hrest⟩

theorem replaceAll_around (left inner right : List α) (hinner : Separate inner old) (hleft : ¬old <:+: left) :
    replaceAll old new (left ++ inner ++ right) = left ++ inner ++ replaceAll old new right := by
  apply replaceAll_append_of_late
  intro before after h
  rw [List.length_append]
  rcases hinner left right before after h with hlen | hlen
  · rw [List.append_assoc] at h
    exact absurd (infix_of_append_le old left (inner ++ right) before after h hlen) hleft
  · exact hlen

end Occurrences

end MesosPoc.Replace
