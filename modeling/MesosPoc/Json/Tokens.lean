import MesosPoc.Json
import Mathlib.Data.List.Find

namespace MesosPoc.Json

open Python

-- The characters of numbers and constants.
def isScalarChar (c : Char) : Bool :=
  ('a' ≤ c ∧ c ≤ 'z') ∨ ('A' ≤ c ∧ c ≤ 'Z') ∨ ('0' ≤ c ∧ c ≤ '9') ∨ c = '+' ∨ c = '-' ∨ c = '.'

-- No scalar goes on into a text.
def Ends (rest : Str) : Prop :=
  ∀ c, rest.head? = some c → isScalarChar c = false

section Runs

variable {token rest : Str}

theorem Ends.head_ne (h : Ends rest) {c : Char} (hc : isScalarChar c = true) : rest.head? ≠ some c := by
  intro hhead
  rw [h c hhead] at hc
  cases hc

theorem takeWhile_ends (p : Char → Bool) (hp : ∀ c, p c = true → isScalarChar c = true) (h : Ends rest) :
    (token ++ rest).takeWhile p = token.takeWhile p ∧ (token ++ rest).dropWhile p = token.dropWhile p ++ rest := by
  induction token with
  | nil =>
      cases rest with
      | nil => exact ⟨rfl, rfl⟩
      | cons c rest =>
          have hc : p c = false := by
            by_contra hpc
            rw [Bool.not_eq_false] at hpc
            exact h.head_ne (hp c hpc) rfl
          simp [hc]
  | cons c token ih =>
      by_cases hc : p c = true
      · simp [hc, ih.1, ih.2]
      · simp [hc]

theorem isScalarChar_digit (c : Char) (h : isDigit c = true) : isScalarChar c = true := by
  simp only [isDigit, decide_eq_true_eq] at h
  simp [isScalarChar, h]

theorem digits_ends (token : Str) (h : Ends rest) :
    (token ++ rest).takeWhile isDigit = token.takeWhile isDigit ∧
      (token ++ rest).dropWhile isDigit = token.dropWhile isDigit ++ rest :=
  takeWhile_ends isDigit isScalarChar_digit h

-- A scanner that goes on behind a text as it does at its end.
def Local {α : Type} (scan : Str → Option (α × Str)) : Prop :=
  ∀ token rest, Ends rest → scan (token ++ rest) = (scan token).map fun (value, left) => (value, left ++ rest)

def LocalPart (scan : Str → Str × Str) : Prop :=
  ∀ token rest, Ends rest → scan (token ++ rest) = ((scan token).1, (scan token).2 ++ rest)

theorem scanFraction_local : LocalPart scanFraction := by
  intro token rest h
  cases token with
  | nil =>
      cases rest with
      | nil => rfl
      | cons c rest =>
          have hc : c ≠ '.' := by
            rintro rfl
            exact h.head_ne rfl rfl
          rw [List.nil_append]
          unfold scanFraction
          split
          · rename_i heq
            exact absurd (List.cons.inj heq).1 hc
          · rfl
  | cons c token =>
      by_cases hc : c = '.'
      · subst c
        obtain ⟨htake, hdrop⟩ := digits_ends token h
        rw [List.cons_append]
        simp only [scanFraction, htake, hdrop]
        split
        · rfl
        · rfl
      · rw [List.cons_append]
        unfold scanFraction
        split
        · rename_i heq
          exact absurd (List.cons.inj heq).1 hc
        · split
          · rename_i heq
            exact absurd (List.cons.inj heq).1 hc
          · rfl

theorem scanSign_local : LocalPart scanSign := by
  intro token rest h
  cases token with
  | nil =>
      cases rest with
      | nil => rfl
      | cons c rest =>
          have hminus : c ≠ '-' := by
            rintro rfl
            exact h.head_ne rfl rfl
          have hplus : c ≠ '+' := by
            rintro rfl
            exact h.head_ne rfl rfl
          rw [List.nil_append]
          unfold scanSign
          split
          · rename_i heq
            exact absurd (List.cons.inj heq).1 hminus
          · rename_i heq
            exact absurd (List.cons.inj heq).1 hplus
          · rfl
  | cons c token =>
      by_cases hminus : c = '-'
      · subst c
        rfl
      · by_cases hplus : c = '+'
        · subst c
          rfl
        · have hself : ∀ more, scanSign (c :: more) = ([], c :: more) := by
            intro more
            unfold scanSign
            split
            · rename_i heq
              exact absurd (List.cons.inj heq).1 hminus
            · rename_i heq
              exact absurd (List.cons.inj heq).1 hplus
            · rfl
          rw [List.cons_append, hself, hself]
          rfl

theorem scanExponent_local : LocalPart scanExponent := by
  intro token rest h
  cases token with
  | nil =>
      cases rest with
      | nil => rfl
      | cons c rest =>
          have he : ¬(c = 'e' ∨ c = 'E') := by
            rintro (rfl | rfl)
            · exact h.head_ne rfl rfl
            · exact h.head_ne rfl rfl
          have hnone : ¬((c = 'e' ∨ c = 'E') ∧ (scanSign rest).2.takeWhile isDigit ≠ []) := fun hand => he hand.1
          rw [List.nil_append]
          simp only [scanExponent]
          rw [if_neg hnone]
          rfl
  | cons c token =>
      have hsign := scanSign_local token rest h
      obtain ⟨htake, hdrop⟩ := digits_ends (scanSign token).2 h
      rw [List.cons_append]
      simp only [scanExponent, hsign, htake, hdrop]
      split
      · rfl
      · rfl

-- The digits of a number without its sign.
theorem digits_local (h : Ends rest) :
    (if (token ++ rest).head? = some '0' then ['0'] else (token ++ rest).takeWhile isDigit) =
      if token.head? = some '0' then ['0'] else token.takeWhile isDigit := by
  cases token with
  | nil =>
      rw [List.nil_append, if_neg (h.head_ne rfl), if_neg (by simp)]
      exact (digits_ends [] h).1
  | cons c token =>
      rw [(digits_ends _ h).1]
      rfl

theorem length_digits_le (token : Str) :
    (if token.head? = some '0' then ['0'] else token.takeWhile isDigit).length ≤ token.length := by
  split
  · rename_i hhead
    cases token with
    | nil => cases hhead
    | cons c token => simp
  · exact (List.takeWhile_prefix isDigit).length_le

theorem scanMagnitude_local (negative : Bool) : Local (scanMagnitude negative) := by
  intro token rest h
  have hle := length_digits_le token
  unfold scanMagnitude
  rw [digits_local h]
  generalize (if token.head? = some '0' then ['0'] else token.takeWhile isDigit) = digits at hle ⊢
  have hdrop : (token ++ rest).drop digits.length = token.drop digits.length ++ rest :=
    List.drop_append_of_le_length hle
  simp only [hdrop, scanFraction_local _ rest h, scanExponent_local _ rest h]
  split
  · rfl
  · split
    · rfl
    · rfl

theorem scanNumber_local : Local scanNumber := by
  intro token rest h
  have hother : ∀ s : Str, s.head? ≠ some '-' → scanNumber s = scanMagnitude false s := by
    intro s hs
    unfold scanNumber
    split
    · exact absurd rfl hs
    · rfl
  cases token with
  | nil =>
      have hrest : rest.head? ≠ some '-' := h.head_ne rfl
      rw [List.nil_append, hother rest hrest, hother [] (by simp)]
      exact scanMagnitude_local false [] rest h
  | cons c token =>
      by_cases hc : c = '-'
      · subst c
        exact scanMagnitude_local true token rest h
      · have hhead : ∀ more : Str, (c :: more).head? ≠ some '-' := by
          intro more hmore
          exact hc (Option.some.inj hmore)
        rw [List.cons_append, hother _ (hhead _), hother _ (hhead _)]
        exact scanMagnitude_local false (c :: token) rest h

-- A word of scalar characters starts a text within the token or not at all.
theorem prefix_ends (word : Str) (hword : ∀ c ∈ word, isScalarChar c = true) (h : Ends rest) :
    word.isPrefixOf (token ++ rest) = word.isPrefixOf token := by
  induction word generalizing token with
  | nil => simp
  | cons a word ih =>
      obtain ⟨ha, hword⟩ := List.forall_mem_cons.mp hword
      cases token with
      | nil =>
          cases rest with
          | nil => rfl
          | cons c rest =>
              have hc : a ≠ c := by
                rintro rfl
                exact h.head_ne ha rfl
              simp [List.isPrefixOf, hc]
      | cons c token =>
          rw [List.cons_append, List.isPrefixOf, List.isPrefixOf, ih hword]

theorem constants_chars : ∀ constant ∈ constants, ∀ c ∈ constant.1, isScalarChar c = true := by
  have hall : constants.all (fun constant => constant.1.all isScalarChar) = true := by
    decide +kernel
  intro constant hconstant
  exact List.all_eq_true.mp (List.all_eq_true.mp hall constant hconstant)

theorem scanScalar_local : Local scanScalar := by
  intro token rest h
  have hfind : (constants.find? fun constant => constant.1.isPrefixOf (token ++ rest)) =
      constants.find? fun constant => constant.1.isPrefixOf token := by
    apply List.find?_congr
    intro constant hconstant
    exact prefix_ends constant.1 (constants_chars constant hconstant) h
  unfold scanScalar
  rw [hfind]
  split
  · rename_i literal value hliteral
    have hprefixed := List.find?_some hliteral
    have hle : literal.length ≤ token.length := (List.isPrefixOf_iff_prefix.mp hprefixed).length_le
    rw [List.drop_append_of_le_length hle]
    rfl
  · exact scanNumber_local token rest h

-- What a scanner leaves is the end of its text.

theorem scanFraction_suffix (s : Str) : (scanFraction s).2 <:+ s := by
  unfold scanFraction
  split
  · rename_i rest
    split
    · exact List.suffix_refl _
    · exact (List.dropWhile_suffix isDigit).trans (List.suffix_cons '.' rest)
  · exact List.suffix_refl _

theorem scanSign_suffix (s : Str) : (scanSign s).2 <:+ s := by
  unfold scanSign
  split
  · exact List.suffix_cons _ _
  · exact List.suffix_cons _ _
  · exact List.suffix_refl _

theorem scanExponent_suffix (s : Str) : (scanExponent s).2 <:+ s := by
  unfold scanExponent
  split
  · exact List.suffix_refl _
  · rename_i e rest
    simp only
    split
    · exact (List.dropWhile_suffix isDigit).trans ((scanSign_suffix rest).trans (List.suffix_cons e rest))
    · exact List.suffix_refl _

-- A scalar holds no text.
def IsScalar (j : Json) : Prop :=
  j = .null ∨ (∃ value, j = .bool value) ∨ (∃ value, j = .int value) ∨ ∃ literal, j = .float literal

theorem scanMagnitude_spec {negative : Bool} {s left : Str} {value : Json}
    (h : scanMagnitude negative s = some (value, left)) : left <:+ s ∧ IsScalar value := by
  unfold scanMagnitude at h
  simp only at h
  generalize (if s.head? = some '0' then ['0'] else s.takeWhile isDigit) = digits at h
  have hfraction := scanFraction_suffix (s.drop digits.length)
  have hexponent := scanExponent_suffix (scanFraction (s.drop digits.length)).2
  have hleft := hexponent.trans (hfraction.trans (List.drop_suffix digits.length s))
  split at h
  · cases h
  · split at h
    · obtain ⟨rfl, rfl⟩ := Prod.mk.inj (Option.some.inj h)
      exact ⟨hleft, Or.inr (Or.inr (Or.inl ⟨_, rfl⟩))⟩
    · obtain ⟨rfl, rfl⟩ := Prod.mk.inj (Option.some.inj h)
      exact ⟨hleft, Or.inr (Or.inr (Or.inr ⟨_, rfl⟩))⟩

theorem scanScalar_spec {s left : Str} {value : Json} (h : scanScalar s = some (value, left)) :
    left <:+ s ∧ IsScalar value := by
  unfold scanScalar at h
  split at h
  · rename_i literal constant hfind
    obtain ⟨rfl, rfl⟩ := Prod.mk.inj (Option.some.inj h)
    refine ⟨List.drop_suffix literal.length s, ?_⟩
    have hall : ∀ pair ∈ constants, IsScalar pair.2 := by
      intro pair hpair
      simp only [constants, List.mem_cons, List.not_mem_nil, or_false] at hpair
      rcases hpair with rfl | rfl | rfl | rfl | rfl | rfl
      · exact Or.inl rfl
      · exact Or.inr (Or.inl ⟨_, rfl⟩)
      · exact Or.inr (Or.inl ⟨_, rfl⟩)
      · exact Or.inr (Or.inr (Or.inr ⟨_, rfl⟩))
      · exact Or.inr (Or.inr (Or.inr ⟨_, rfl⟩))
      · exact Or.inr (Or.inr (Or.inr ⟨_, rfl⟩))
    exact hall _ (List.mem_of_find?_eq_some hfind)
  · unfold scanNumber at h
    split at h
    · obtain ⟨hleft, hvalue⟩ := scanMagnitude_spec h
      exact ⟨hleft.trans (List.suffix_cons _ _), hvalue⟩
    · exact scanMagnitude_spec h

-- A scalar before a text that goes on with another character takes whole characters of
-- its own, and the same ones before any such text.
theorem scanScalar_split {s left : Str} {value : Json} (h : scanScalar s = some (value, left)) (hleft : Ends left) :
    ∃ token, s = token ++ left ∧ (∀ c ∈ token, isScalarChar c = true) ∧
      ∀ rest, Ends rest → scanScalar (token ++ rest) = some (value, rest) := by
  have hsplit := List.takeWhile_append_dropWhile (p := isScalarChar) (l := s)
  have hends : Ends (s.dropWhile isScalarChar) := by
    intro c hc
    have hnot := List.head?_dropWhile_not isScalarChar s
    rw [hc] at hnot
    exact hnot
  have hlocal := scanScalar_local (s.takeWhile isScalarChar) (s.dropWhile isScalarChar) hends
  rw [hsplit, h] at hlocal
  obtain ⟨⟨value', surplus⟩, hscan, heq⟩ := Option.map_eq_some_iff.mp hlocal.symm
  obtain ⟨rfl, hsurplus⟩ := Prod.mk.inj heq
  have hnil : surplus = [] := by
    cases surplus with
    | nil => rfl
    | cons c surplus =>
        have hmem : c ∈ s.takeWhile isScalarChar := (scanScalar_spec hscan).1.subset List.mem_cons_self
        exact absurd (List.mem_takeWhile_imp hmem) (by rw [hleft c (by rw [← hsurplus]; rfl)]; exact Bool.false_ne_true)
  rw [hnil] at hscan
  rw [hnil, List.nil_append] at hsurplus
  refine ⟨s.takeWhile isScalarChar, by rw [← hsurplus, hsplit], fun c hc => List.mem_takeWhile_imp hc, ?_⟩
  intro rest hrest
  rw [scanScalar_local _ rest hrest, hscan]
  rfl

end Runs

section Strings

-- The bytes that a string literal holds as they are read.
def Unescaped (s : Str) : Prop :=
  ∀ c ∈ s, c ≠ '"' ∧ c ≠ '\\' ∧ 0x20 ≤ c.toNat

theorem scanUnits_cons {c : Char} {rest : Str} (hquote : c ≠ '"') (hslash : c ≠ '\\') (hcontrol : 0x20 ≤ c.toNat) :
    scanUnits 0 (c :: rest) = (scanUnits 0 rest).map fun (units, rest) => (.inl c :: units, rest) := by
  rw [scanUnits, if_neg hquote, if_neg hslash, if_neg (by omega)]

theorem encodeUnits_literal (v : Str) : encodeUnits (v.map .inl) = v := by
  induction v with
  | nil => rfl
  | cons c v ih => rw [List.map_cons, encodeUnits, ih]

theorem scanString_literal (v rest : Str) (h : Unescaped v) : scanString (v ++ '"' :: rest) = some (v, rest) := by
  have hunits : scanUnits 0 (v ++ '"' :: rest) = some (v.map .inl, rest) := by
    induction v with
    | nil => rw [List.nil_append, scanUnits, if_pos rfl, List.map_nil]
    | cons c v ih =>
        obtain ⟨⟨hquote, hslash, hcontrol⟩, hv⟩ := List.forall_mem_cons.mp h
        rw [List.cons_append, scanUnits_cons hquote hslash hcontrol, ih hv]
        rfl
  simp only [scanString, hunits, Option.map_some, encodeUnits_literal]

-- A string without a backslash is its literal.
theorem scanString_inv {s v rest : Str} (hs : '\\' ∉ s) (h : scanString s = some (v, rest)) :
    s = v ++ '"' :: rest ∧ Unescaped v := by
  obtain ⟨⟨units, left⟩, hunits, heq⟩ := Option.map_eq_some_iff.mp h
  obtain ⟨rfl, rfl⟩ := Prod.mk.inj heq
  have hall : ∃ w, units = w.map .inl ∧ s = w ++ '"' :: left ∧ Unescaped w := by
    clear h heq
    induction s generalizing units with
    | nil => cases hunits
    | cons c s ih =>
        rw [List.mem_cons, not_or] at hs
        have hslash : c ≠ '\\' := Ne.symm hs.1
        by_cases hquote : c = '"'
        · rw [hquote, scanUnits, if_pos rfl] at hunits
          obtain ⟨rfl, rfl⟩ := Prod.mk.inj (Option.some.inj hunits)
          exact ⟨[], rfl, by rw [hquote, List.nil_append], List.forall_mem_nil _⟩
        · by_cases hcontrol : 0x20 ≤ c.toNat
          · rw [scanUnits_cons hquote hslash hcontrol] at hunits
            obtain ⟨⟨more, left'⟩, hmore, heq⟩ := Option.map_eq_some_iff.mp hunits
            obtain ⟨rfl, rfl⟩ := Prod.mk.inj heq
            obtain ⟨w, rfl, rfl, hw⟩ := ih hs.2 more hmore
            exact ⟨c :: w, rfl, rfl, List.forall_mem_cons.mpr ⟨⟨hquote, hslash, hcontrol⟩, hw⟩⟩
          · rw [scanUnits, if_neg hquote, if_neg hslash, if_pos (by omega)] at hunits
            cases hunits
  obtain ⟨w, rfl, hsplit, hw⟩ := hall
  rw [encodeUnits_literal]
  exact ⟨hsplit, hw⟩

end Strings

section Bytes

-- Whether a sequence starts here, or goes on with bytes that are no ASCII.
def Continues (state : Nat × Nat × Nat) : Prop :=
  state.1 = 0 ∨ 0x80 ≤ state.2.1

theorem continues_utf8Tail {lead : Nat} {tail : Nat × Nat × Nat} (h : utf8Tail lead = some tail) :
    Continues tail := by
  right
  unfold utf8Tail at h
  split at h
  · obtain rfl := Option.some.inj h
    decide
  · split at h
    · obtain rfl := Option.some.inj h
      decide
    · split at h
      · obtain rfl := Option.some.inj h
        decide
      · split at h
        · obtain rfl := Option.some.inj h
          decide
        · split at h
          · obtain rfl := Option.some.inj h
            decide
          · split at h
            · obtain rfl := Option.some.inj h
              decide
            · cases h

theorem utf8Valid_ascii {c : Char} (hc : c.toNat < 0x80) (rest : Str) (low high : Nat) :
    utf8Valid (0, low, high) (c :: rest) = utf8Valid (0, 0, 0) rest := by
  rw [utf8Valid, if_pos hc]

-- No sequence goes on past an ASCII character.
theorem utf8Valid_split (left : Str) {c : Char} (hc : c.toNat < 0x80) (rest : Str) (state : Nat × Nat × Nat)
    (hstate : Continues state) :
    utf8Valid state (left ++ c :: rest) = (utf8Valid state left && utf8Valid (0, 0, 0) rest) := by
  induction left generalizing state with
  | nil =>
      obtain ⟨count, low, high⟩ := state
      cases count with
      | zero =>
          rw [List.nil_append, utf8Valid_ascii hc]
          rfl
      | succ count =>
          have hlow : ¬(low ≤ c.toNat) := by
            rcases hstate with h | h
            · cases h
            · simp only at h
              omega
          rw [List.nil_append, utf8Valid]
          simp [utf8Valid, hlow]
  | cons a left ih =>
      obtain ⟨count, low, high⟩ := state
      cases count with
      | zero =>
          rw [List.cons_append, utf8Valid, utf8Valid]
          split
          · exact ih (0, 0, 0) (Or.inl rfl)
          · split
            · rename_i tail htail
              exact ih tail (continues_utf8Tail htail)
            · rfl
      | succ count =>
          rw [List.cons_append, utf8Valid, utf8Valid, ih (count, 0x80, 0xBF) (Or.inr (Nat.le_refl _)), Bool.and_assoc]

theorem utf8Valid_append (left rest : Str) (state : Nat × Nat × Nat) (h : utf8Valid state left = true) :
    utf8Valid state (left ++ rest) = utf8Valid (0, 0, 0) rest := by
  induction left generalizing state with
  | nil =>
      obtain ⟨count, low, high⟩ := state
      cases count with
      | zero =>
          cases rest with
          | nil => rfl
          | cons c rest => rw [List.nil_append, utf8Valid, utf8Valid]
      | succ count => cases h
  | cons a left ih =>
      obtain ⟨count, low, high⟩ := state
      cases count with
      | zero =>
          rw [List.cons_append, utf8Valid]
          rw [utf8Valid] at h
          split
          · rename_i ha
            rw [if_pos ha] at h
            exact ih (0, 0, 0) h
          · rename_i ha
            rw [if_neg ha] at h
            cases htail : utf8Tail a.toNat with
            | some tail =>
                rw [htail] at h
                exact ih tail h
            | none =>
                rw [htail] at h
                cases h
      | succ count =>
          rw [List.cons_append, utf8Valid]
          rw [utf8Valid] at h
          obtain ⟨hrange, hrest⟩ := (Bool.and_eq_true _ _).mp h
          rw [hrange, Bool.true_and]
          exact ih (count, 0x80, 0xBF) hrest

end Bytes

end MesosPoc.Json
