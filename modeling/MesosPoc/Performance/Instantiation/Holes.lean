import MesosPoc.Performance.Instantiation

namespace MesosPoc.Performance

open Replace

-- No placeholder occurs in a text.
def NoHole (s : Str) : Prop :=
  ∀ p : Placeholder, ¬p.text <:+: s

namespace Placeholder

variable (p q : Placeholder)

theorem text_ne_nil : p.text ≠ [] :=
  List.cons_ne_nil _ _

theorem isNameChar_ne {c : Char} (h : isNameChar c = true) : c ≠ '{' ∧ c ≠ '}' := by
  refine ⟨?_, ?_⟩ <;> rintro rfl <;> cases h

theorem eq_of_name {p q : Placeholder} (h : p.name = q.name) : p = q := by
  cases p
  cases q
  cases h
  rfl

-- A placeholder opens with its only left brace.
theorem text_split_left (x y : Str) (c : Char) (h : x ++ c :: y = p.text) (hx : x ≠ []) : c ≠ '{' := by
  cases x with
  | nil => exact absurd rfl hx
  | cons a x =>
      have htail : x ++ c :: y = p.name ++ ['}'] := (List.cons.inj h).2
      have hmem : c ∈ p.name ++ ['}'] := by
        rw [← htail]
        exact List.mem_append_right _ List.mem_cons_self
      rcases List.mem_append.mp hmem with hc | hc
      · exact (isNameChar_ne (p.chars c hc)).1
      · rintro rfl
        simp at hc

-- No placeholder starts inside another one.
theorem not_inside (d right after : Str) (hd : d ≠ []) (hlen : d.length < p.text.length)
    (h : p.text ++ right = d ++ (q.text ++ after)) : False := by
  rcases List.append_eq_append_iff.mp h with ⟨rest, hrest, -⟩ | ⟨rest, hrest, hright⟩
  · rw [hrest, List.length_append] at hlen
    omega
  · cases rest with
    | nil =>
        rw [hrest, List.append_nil] at hlen
        exact Nat.lt_irrefl _ hlen
    | cons c rest =>
        have hc : c = '{' := ((List.cons.inj hright).1).symm
        exact p.text_split_left d rest c hrest.symm hd hc

theorem holeName_text (rest : Str) : holeName (p.text ++ rest) = some p.name := by
  have htake : (p.name ++ '}' :: rest).takeWhile isNameChar = p.name := by
    rw [List.takeWhile_append_of_pos p.chars]
    exact List.append_nil _
  have hdrop : (p.name ++ '}' :: rest).dropWhile isNameChar = '}' :: rest := by
    rw [List.dropWhile_append_of_pos p.chars]
    rfl
  have htext : p.text ++ rest = '{' :: (p.name ++ '}' :: rest) := by
    simp [text]
  rw [htext, holeName, htake, hdrop, if_pos ⟨p.nonempty, rfl⟩]

theorem eq_of_prefix (right after : Str) (h : p.text ++ right = q.text ++ after) : p = q := by
  apply eq_of_name
  have hname := p.holeName_text right
  rw [h, q.holeName_text] at hname
  exact (Option.some.inj hname).symm

-- Two placeholders overlap only where they are the same.
theorem overlap (left right before after : Str)
    (h : left ++ p.text ++ right = before ++ q.text ++ after) :
    before.length + q.text.length ≤ left.length ∨ left.length + p.text.length ≤ before.length ∨
      before = left ∧ p = q := by
  rw [List.append_assoc, List.append_assoc] at h
  rcases List.append_eq_append_iff.mp h with ⟨d, hd, hright⟩ | ⟨d, hd, hright⟩
  · cases d with
    | nil =>
        rw [List.append_nil] at hd
        exact Or.inr (Or.inr ⟨hd, p.eq_of_prefix q right after hright⟩)
    | cons c d =>
        right
        left
        by_contra hover
        rw [hd, List.length_append] at hover
        exact p.not_inside q (c :: d) right after (List.cons_ne_nil _ _) (by omega) hright
  · cases d with
    | nil =>
        rw [List.append_nil] at hd
        exact Or.inr (Or.inr ⟨hd.symm, p.eq_of_prefix q right after hright.symm⟩)
    | cons c d =>
        left
        by_contra hover
        rw [hd, List.length_append] at hover
        exact q.not_inside p (c :: d) after right (List.cons_ne_nil _ _) (by omega) hright

theorem separate (h : p ≠ q) : Separate p.text q.text := by
  intro left right before after heq
  rcases p.overlap q left right before after heq with hlen | hlen | ⟨-, hpq⟩
  · exact Or.inl hlen
  · exact Or.inr hlen
  · exact absurd hpq h

end Placeholder

theorem exists_placeholder_of_holeName (s name : Str) (h : holeName s = some name) :
    ∃ (p : Placeholder) (rest : Str), p.name = name ∧ s = p.text ++ rest := by
  unfold holeName at h
  split at h
  · rename_i rest
    obtain ⟨⟨hne, hclose⟩, hname⟩ := Option.ite_none_right_eq_some.mp h
    have hchars : ∀ c ∈ rest.takeWhile isNameChar, isNameChar c = true := fun c hc => List.mem_takeWhile_imp hc
    refine ⟨⟨rest.takeWhile isNameChar, hne, hchars⟩, (rest.dropWhile isNameChar).tail, Option.some.inj hname, ?_⟩
    have hdrop : rest.dropWhile isNameChar = '}' :: (rest.dropWhile isNameChar).tail :=
      List.eq_cons_of_mem_head? hclose
    have hsplit := List.takeWhile_append_dropWhile (p := isNameChar) (l := rest)
    rw [hdrop] at hsplit
    simp only [Placeholder.text, List.cons_append, List.append_assoc, List.nil_append, hsplit]
  · cases h

theorem noHole_nil : NoHole [] := by
  intro p hp
  exact p.text_ne_nil (List.infix_nil.mp hp)

theorem noHole_cons (c : Char) (left rest : Str) (hname : holeName (c :: (left ++ rest)) = none)
    (hleft : NoHole left) : NoHole (c :: left) := by
  intro p hp
  rcases List.infix_cons_iff.mp hp with ⟨after, hafter⟩ | hin
  · rw [← List.cons_append, ← hafter, List.append_assoc, p.holeName_text] at hname
    cases hname
  · exact hleft p hin

-- A text without placeholders, or its first placeholder.
theorem first_hole (s : Str) :
    NoHole s ∨ ∃ (left : Str) (p : Placeholder) (rest : Str), NoHole left ∧ s = left ++ p.text ++ rest := by
  induction s with
  | nil => exact Or.inl noHole_nil
  | cons c s ih =>
      cases hname : holeName (c :: s) with
      | some name =>
          obtain ⟨p, rest, -, hs⟩ := exists_placeholder_of_holeName (c :: s) name hname
          exact Or.inr ⟨[], p, rest, noHole_nil, hs⟩
      | none =>
          rcases ih with hs | ⟨left, p, rest, hleft, rfl⟩
          · left
            apply noHole_cons c s [] _ hs
            rw [List.append_nil]
            exact hname
          · right
            rw [List.append_assoc] at hname
            exact ⟨c :: left, p, rest, noHole_cons c left (p.text ++ rest) hname hleft, rfl⟩

section Filling

variable (values : Str → Str)

theorem fillFrom_drop (skip : Nat) (s : Str) : fillFrom values skip s = fill values (s.drop skip) := by
  induction s generalizing skip with
  | nil =>
      rw [List.drop_nil]
      cases skip <;> rfl
  | cons c rest ih =>
      cases skip with
      | zero => rfl
      | succ skip => exact ih skip

theorem fill_hole (p : Placeholder) (rest : Str) :
    fill values (p.text ++ rest) = values p.name ++ fill values rest := by
  have hname := p.holeName_text rest
  have htext : p.text ++ rest = '{' :: (p.name ++ ['}'] ++ rest) := rfl
  have hdrop : (p.name ++ ['}'] ++ rest).drop (p.name.length + 1) = rest := by
    rw [List.drop_append_of_le_length (by simp), List.drop_of_length_le (by simp), List.nil_append]
  rw [htext] at hname ⊢
  rw [fill, fillFrom, hname]
  simp only [fillFrom_drop, hdrop]

theorem fill_cons (c : Char) (rest : Str) (h : holeName (c :: rest) = none) :
    fill values (c :: rest) = c :: fill values rest := by
  rw [fill, fillFrom, h]
  rfl

theorem fill_append (left rest : Str) (hleft : NoHole left)
    (hrest : rest = [] ∨ ∃ (p : Placeholder) (after : Str), rest = p.text ++ after) :
    fill values (left ++ rest) = left ++ fill values rest := by
  induction left with
  | nil => rfl
  | cons c left ih =>
      have hnone : holeName (c :: (left ++ rest)) = none := by
        cases hname : holeName (c :: (left ++ rest)) with
        | none => rfl
        | some name =>
            obtain ⟨q, after, -, hq⟩ := exists_placeholder_of_holeName _ name hname
            rcases hrest with rfl | ⟨p, after', rfl⟩
            · refine absurd ?_ (hleft q)
              rw [List.append_nil] at hq
              exact ⟨[], after, by rw [List.nil_append, hq]⟩
            · have hover : (c :: left) ++ p.text ++ after' = [] ++ q.text ++ after := by
                simpa using hq
              rcases p.overlap q (c :: left) after' [] after hover with hlen | hlen | ⟨hnil, -⟩
              · refine absurd (infix_of_append_le q.text (c :: left) (p.text ++ after') [] after ?_ hlen) (hleft q)
                rw [← List.append_assoc]
                exact hover
              · simp at hlen
              · cases hnil
      rw [List.cons_append, fill_cons values c _ hnone, ih]
      · rfl
      · intro q hq
        exact hleft q (List.infix_cons hq)

theorem fill_noHole (s : Str) (h : NoHole s) : fill values s = s := by
  have hs := fill_append values s [] h (Or.inl rfl)
  rw [List.append_nil] at hs
  rw [hs]
  exact List.append_nil s

theorem fill_first (left : Str) (p : Placeholder) (rest : Str) (hleft : NoHole left) :
    fill values (left ++ p.text ++ rest) = left ++ values p.name ++ fill values rest := by
  rw [List.append_assoc, fill_append values left (p.text ++ rest) hleft (Or.inr ⟨p, rest, rfl⟩), fill_hole,
    List.append_assoc]

-- To show something of a text, take it apart at its placeholders.
theorem hole_induction {motive : Str → Prop} (hnone : ∀ s, NoHole s → motive s)
    (hstep : ∀ (left : Str) (p : Placeholder) (rest : Str), NoHole left → motive rest →
      motive (left ++ p.text ++ rest)) (s : Str) : motive s := by
  induction hn : s.length using Nat.strong_induction_on generalizing s with
  | _ n ih =>
      rcases first_hole s with hs | ⟨left, p, rest, hleft, rfl⟩
      · exact hnone s hs
      · apply hstep left p rest hleft
        apply ih rest.length _ rest rfl
        rw [← hn, List.length_append, List.length_append, Placeholder.text, List.length_append, List.length_cons]
        omega

theorem fill_congr (values' : Str → Str) (h : ∀ p : Placeholder, values p.name = values' p.name) (s : Str) :
    fill values s = fill values' s := by
  induction s using hole_induction with
  | hnone s hs => rw [fill_noHole values s hs, fill_noHole values' s hs]
  | hstep left p rest hleft ih => rw [fill_first values left p rest hleft, fill_first values' left p rest hleft, h, ih]

theorem fill_placeholders (h : ∀ p : Placeholder, values p.name = p.text) (s : Str) : fill values s = s := by
  induction s using hole_induction with
  | hnone s hs => exact fill_noHole values s hs
  | hstep left p rest hleft ih => rw [fill_first values left p rest hleft, h, ih]

-- One more placeholder gets its value.
theorem replaceAll_fill (p : Placeholder) (value : Str) (hp : values p.name = p.text)
    (hsep : ∀ q : Placeholder, q ≠ p → Separate (values q.name) p.text) (s : Str) :
    replaceAll p.text value (fill values s) = fill (Function.update values p.name value) s := by
  induction s using hole_induction with
  | hnone s hs =>
      rw [fill_noHole _ s hs, fill_noHole _ s hs]
      exact replaceAll_of_not_infix p.text value s (hs p)
  | hstep left q rest hleft ih =>
      rw [fill_first _ left q rest hleft, fill_first _ left q rest hleft]
      by_cases hq : q = p
      · rw [hq, hp, Function.update_self]
        have hlate : replaceAll p.text value (left ++ (p.text ++ fill values rest)) =
            left ++ replaceAll p.text value (p.text ++ fill values rest) := by
          apply replaceAll_append_of_late
          intro before after h
          rw [← List.append_assoc] at h
          rcases p.overlap p left _ before after h with hlen | hlen | ⟨rfl, -⟩
          · rw [List.append_assoc] at h
            exact absurd (infix_of_append_le p.text left _ before after h hlen) (hleft p)
          · omega
          · exact Nat.le_refl _
        rw [List.append_assoc, hlate, replaceAll_old_append p.text value p.text_ne_nil, ih, List.append_assoc]
      · have hname : q.name ≠ p.name := fun h => hq (Placeholder.eq_of_name h)
        rw [Function.update_of_ne hname, replaceAll_around p.text value left _ _ (hsep q hq) (hleft p), ih]

end Filling

end MesosPoc.Performance
