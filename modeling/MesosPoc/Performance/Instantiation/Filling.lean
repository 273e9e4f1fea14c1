import MesosPoc.Json.Tokens
import MesosPoc.Performance.Instantiation.Scripts

namespace MesosPoc.Performance

open Json

section Filling

variable (values : Str → Str)

mutual

-- A decoded template with the placeholders of its strings and keys filled in.
def fillJson : Json → Json
  | .null => .null
  | .bool value => .bool value
  | .int value => .int value
  | .float literal => .float literal
  | .str value => .str (fill values value)
  | .arr items => .arr (fillItems items)
  | .obj pairs => .obj (fillPairs pairs)

def fillItems : List Json → List Json
  | [] => []
  | item :: rest => fillJson item :: fillItems rest

def fillPairs : List (Str × Json) → List (Str × Json)
  | [] => []
  | (key, value) :: rest => (fill values key, fillJson value) :: fillPairs rest

end

-- Values that can stand in a string of JSON.
structure Quotable : Prop where
  unescaped : ∀ p : Placeholder, Unescaped (values p.name)
  valid : ∀ p : Placeholder, utf8Valid (0, 0, 0) (values p.name) = true

variable {values}

theorem holeName_ne {c : Char} (rest : Str) (h : c ≠ '{') : holeName (c :: rest) = none := by
  unfold holeName
  split
  · rename_i heq
    exact absurd (List.cons.inj heq).1 h
  · rfl

theorem fill_ne {c : Char} (rest : Str) (h : c ≠ '{') : fill values (c :: rest) = c :: fill values rest :=
  fill_cons values c rest (holeName_ne rest h)

-- A brace before anything but a name is no placeholder.
theorem holeName_brace {rest : Str} (h : ∀ c, rest.head? = some c → isNameChar c = false) :
    holeName ('{' :: rest) = none := by
  have htake : rest.takeWhile isNameChar = [] := by
    cases rest with
    | nil => rfl
    | cons c rest => rw [List.takeWhile_cons_of_neg (by rw [h c rfl]; exact Bool.false_ne_true)]
  rw [holeName, if_neg (fun hand => hand.1 htake)]

theorem head_fill {s : Str} (h : holeName s = none) : (fill values s).head? = s.head? := by
  cases s with
  | nil => rfl
  | cons c s => rw [fill_cons values c s h, List.head?_cons, List.head?_cons]

theorem fill_forall {P : Char → Prop} (s : Str) (hs : ∀ c ∈ s, P c) (hvalues : ∀ p : Placeholder, ∀ c ∈ values p.name, P c) :
    ∀ c ∈ fill values s, P c := by
  induction s using hole_induction with
  | hnone s hno =>
      rw [fill_noHole values s hno]
      exact hs
  | hstep left p rest hleft ih =>
      rw [List.forall_mem_append, List.forall_mem_append] at hs
      rw [fill_first values left p rest hleft, List.forall_mem_append, List.forall_mem_append]
      exact ⟨⟨hs.1.1, hvalues p⟩, ih hs.2⟩

-- A character that is in no placeholder parts a text.
theorem fill_parted (left rest : Str) (c : Char) (hname : isNameChar c = false) (hopen : c ≠ '{') (hclose : c ≠ '}') :
    fill values (left ++ c :: rest) = fill values left ++ c :: fill values rest := by
  induction left using hole_induction with
  | hnone left hno =>
      rw [fill_noHole values left hno]
      induction left with
      | nil => exact fill_ne rest hopen
      | cons a left ih =>
          have hnone : holeName (a :: (left ++ c :: rest)) = none := by
            cases h : holeName (a :: (left ++ c :: rest)) with
            | none => rfl
            | some name =>
                obtain ⟨p, after, -, hp⟩ := exists_placeholder_of_holeName _ name h
                rw [← List.cons_append] at hp
                rcases List.append_eq_append_iff.mp hp with ⟨d, hd, hright⟩ | ⟨d, hd, -⟩
                · cases d with
                  | nil =>
                      rw [List.append_nil] at hd
                      exact absurd ⟨[], [], by rw [hd, List.nil_append, List.append_nil]⟩ (hno p)
                  | cons b d =>
                      have hb : c = b := (List.cons.inj hright).1
                      have hmem : c ∈ p.text := by
                        rw [hd, hb]
                        exact List.mem_append_right _ List.mem_cons_self
                      exact absurd rfl (text_ne p c hname hopen hclose c hmem)
                · exact absurd ⟨[], d, by rw [hd, List.nil_append]⟩ (hno p)
          have hrest : NoHole left := fun p hp => hno p (List.infix_cons hp)
          rw [List.cons_append, fill_cons values a _ hnone, ih hrest, List.cons_append]
  | hstep left p after hleft ih =>
      have hsplit : left ++ p.text ++ after ++ c :: rest = left ++ p.text ++ (after ++ c :: rest) :=
        List.append_assoc _ _ _
      rw [hsplit, fill_first values left p _ hleft, fill_first values left p _ hleft, ih, ← List.append_assoc]

theorem isBlank_ne {c d : Char} (h : Json.isBlank c = true) (hd : Json.isBlank d = false) : c ≠ d := by
  rintro rfl
  rw [h] at hd
  cases hd

theorem skipBlanks_fill (values : Str → Str) (s : Str) (h : holeName (skipBlanks s) = none) :
    skipBlanks (fill values s) = fill values (skipBlanks s) := by
  induction s with
  | nil => rfl
  | cons c s ih =>
      unfold skipBlanks at h ih ⊢
      by_cases hc : Json.isBlank c = true
      · rw [List.dropWhile_cons_of_pos hc] at h ⊢
        rw [fill_ne s (isBlank_ne hc rfl), List.dropWhile_cons_of_pos hc]
        exact ih h
      · rw [List.dropWhile_cons_of_neg hc] at h ⊢
        rw [fill_cons values c s h, List.dropWhile_cons_of_neg hc]

theorem utf8Valid_fill (hq : Quotable values) (s : Str) (h : utf8Valid (0, 0, 0) s = true) :
    utf8Valid (0, 0, 0) (fill values s) = true := by
  induction s using hole_induction with
  | hnone s hno =>
      rw [fill_noHole values s hno]
      exact h
  | hstep left p rest hleft ih =>
      have hname : ∀ (name more : Str), (∀ c ∈ name, isNameChar c = true) →
          utf8Valid (0, 0, 0) (name ++ more) = utf8Valid (0, 0, 0) more := by
        intro name more hchars
        induction name with
        | nil => rfl
        | cons c name ihname =>
            obtain ⟨hc, hchars⟩ := List.forall_mem_cons.mp hchars
            have hascii : c.toNat < 0x80 := by
              simp only [isNameChar, decide_eq_true_eq] at hc
              rcases hc with ⟨-, hc⟩ | rfl
              · exact Nat.lt_of_le_of_lt hc (by decide)
              · decide
            rw [List.cons_append, utf8Valid_ascii hascii, ihname hchars]
      have hshape : left ++ p.text ++ rest = left ++ '{' :: (p.name ++ '}' :: rest) := by
        simp [Placeholder.text]
      rw [hshape, utf8Valid_split left (by decide) _ _ (Or.inl rfl), hname p.name _ p.chars,
        utf8Valid_ascii (by decide), Bool.and_eq_true] at h
      rw [fill_first values left p rest hleft, List.append_assoc, utf8Valid_append left _ _ h.1,
        utf8Valid_append _ _ _ (hq.valid p)]
      exact ih h.2

end Filling

end MesosPoc.Performance
