import MesosPoc.Python.Theorems

namespace MesosPoc.Python

def Blank (s : Str) : Prop := ∀ c ∈ s, isSpace c = true

-- A sign and the blanks after it, with what the sign does to the number.
inductive SignPart : Str → (Int → Int) → Prop
  | none : SignPart [] id
  | plus (gap : Str) (h : Blank gap) : SignPart ('+' :: gap) id
  | minus (gap : Str) (h : Blank gap) : SignPart ('-' :: gap) (- ·)

def IsMarker (marker : Str) : Prop :=
  marker = [] ∨ marker = ['0', 'x'] ∨ marker = ['0', 'X']

-- The strings that int(s, 16) takes, with the number it makes of them.
def IntLiteral (s : Str) (n : Int) : Prop :=
  ∃ before sign marker digits after apply,
    s = before ++ (sign ++ (marker ++ digits)) ++ after ∧ Blank before ∧ Blank after ∧
      SignPart sign apply ∧ IsMarker marker ∧ IsHex digits ∧ n = apply (hexValue digits)

theorem blank_takeWhile (s : Str) : Blank (s.takeWhile isSpace) :=
  fun _ hc => List.mem_takeWhile_imp hc

-- The blanks that rstrip takes away.
theorem exists_rdropWhile (s : Str) : ∃ after, Blank after ∧ s = s.rdropWhile isSpace ++ after := by
  refine ⟨s.rtakeWhile isSpace, ?_, List.rdropWhile_append_rtakeWhile.symm⟩
  intro c hc
  exact List.mem_rtakeWhile_imp hc

theorem rdropWhile_append_blank (s blanks : Str) (hb : Blank blanks) :
    (s ++ blanks).rdropWhile isSpace = s.rdropWhile isSpace := by
  induction blanks using List.reverseRecOn with
  | nil => rw [List.append_nil]
  | append_singleton rest c ih =>
      have hc : isSpace c = true := hb c (by simp)
      rw [← List.append_assoc, List.rdropWhile_concat_pos _ _ _ hc]
      exact ih fun d hd => hb d (List.mem_append_left _ hd)

theorem exists_strip (s : Str) :
    ∃ before after, Blank before ∧ Blank after ∧ s = before ++ strip s ++ after := by
  obtain ⟨after, hafter, hs⟩ := exists_rdropWhile (s.dropWhile isSpace)
  refine ⟨s.takeWhile isSpace, after, blank_takeWhile s, hafter, ?_⟩
  rw [strip, List.append_assoc, ← hs, List.takeWhile_append_dropWhile]

theorem strip_of_blank (s : Str) (hs : Blank s) : strip s = [] := by
  rw [strip, List.dropWhile_eq_nil_iff.mpr hs]
  rfl

-- Only the blanks around a string are stripped.
theorem strip_around (before core after : Str) (hbefore : Blank before) (hafter : Blank after)
    (hfirst : core.dropWhile isSpace = core) (hlast : core.rdropWhile isSpace = core) (hne : core ≠ []) :
    strip (before ++ core ++ after) = core := by
  cases core with
  | nil => exact absurd rfl hne
  | cons c rest =>
      have hc : ¬isSpace c = true := by
        intro hc
        have hlength := congrArg List.length hfirst
        rw [List.dropWhile_cons_of_pos hc, List.length_cons] at hlength
        have hle := (List.dropWhile_sublist (p := isSpace) (l := rest)).length_le
        omega
      rw [strip, List.append_assoc, List.dropWhile_append_of_pos hbefore, List.cons_append,
        List.dropWhile_cons_of_neg hc, ← List.cons_append, rdropWhile_append_blank _ after hafter, hlast]

theorem strip_append_blank (s after : Str) (hafter : Blank after) : strip (s ++ after) = strip s := by
  have hrest : after.dropWhile isSpace = [] := List.dropWhile_eq_nil_iff.mpr hafter
  rw [strip, strip, List.dropWhile_append, hrest]
  by_cases hblank : s.dropWhile isSpace = []
  · rw [hblank]
    rfl
  · have hempty : (s.dropWhile isSpace).isEmpty = false := by simpa using hblank
    rw [hempty, if_neg Bool.false_ne_true, rdropWhile_append_blank _ after hafter]

theorem strip_rstrip (s : Str) : strip (rstrip s) = strip s := by
  obtain ⟨after, hafter, hs⟩ := exists_rdropWhile s
  have hstrip := strip_append_blank (rstrip s) after hafter
  rw [rstrip, ← hs] at hstrip
  exact hstrip.symm

theorem blank_rstrip_iff (s : Str) : rstrip s = [] ↔ Blank s :=
  List.rdropWhile_eq_nil_iff

theorem hexMagnitude_eq_ok_iff (digits : Str) (n : Int) :
    hexMagnitude digits = .ok n ↔ IsHex digits ∧ n = hexValue digits := by
  unfold hexMagnitude
  by_cases h : IsHex digits
  · rw [if_pos h, Except.ok.injEq]
    exact ⟨fun hn => ⟨h, hn.symm⟩, fun hn => hn.2.symm⟩
  · rw [if_neg h]
    simp [h]

theorem prefixedMagnitude_eq_ok_iff (literal : Str) (n : Int) :
    prefixedMagnitude literal = .ok n ↔
      ∃ marker digits, literal = marker ++ digits ∧ IsMarker marker ∧ IsHex digits ∧ n = hexValue digits := by
  constructor
  · intro h
    unfold prefixedMagnitude at h
    split at h
    · rename_i digits
      exact ⟨['0', 'x'], digits, rfl, Or.inr (Or.inl rfl), (hexMagnitude_eq_ok_iff digits n).mp h⟩
    · rename_i digits
      exact ⟨['0', 'X'], digits, rfl, Or.inr (Or.inr rfl), (hexMagnitude_eq_ok_iff digits n).mp h⟩
    · exact ⟨[], literal, rfl, Or.inl rfl, (hexMagnitude_eq_ok_iff literal n).mp h⟩
  · rintro ⟨marker, digits, rfl, rfl | rfl | rfl, hdigits, rfl⟩
    · exact prefixedMagnitude_hex digits hdigits
    · exact (hexMagnitude_eq_ok_iff digits _).mpr ⟨hdigits, rfl⟩
    · exact (hexMagnitude_eq_ok_iff digits _).mpr ⟨hdigits, rfl⟩

theorem prefixedMagnitude_error (literal : Str) (e : PyError) (h : prefixedMagnitude literal = .error e) :
    e = .valueError := by
  have hdigits : ∀ digits, hexMagnitude digits = .error e → e = .valueError := by
    intro digits hd
    unfold hexMagnitude at hd
    by_cases hx : IsHex digits
    · rw [if_pos hx] at hd
      cases hd
    · rw [if_neg hx] at hd
      cases hd
      rfl
  unfold prefixedMagnitude at h
  split at h
  · exact hdigits _ h
  · exact hdigits _ h
  · exact hdigits _ h

-- A literal without its sign starts and ends with what is no blank.
theorem literal_first (marker digits : Str) (hm : IsMarker marker) (hd : IsHex digits) :
    ∃ c rest, marker ++ digits = c :: rest ∧ (hexDigit c).isSome := by
  rcases hm with rfl | rfl | rfl
  · cases digits with
    | nil => exact absurd rfl hd.1
    | cons c rest => exact ⟨c, rest, rfl, hd.2 c List.mem_cons_self⟩
  · exact ⟨'0', 'x' :: digits, rfl, by decide⟩
  · exact ⟨'0', 'X' :: digits, rfl, by decide⟩

theorem dropWhile_literal (marker digits : Str) (hm : IsMarker marker) (hd : IsHex digits) :
    (marker ++ digits).dropWhile isSpace = marker ++ digits := by
  obtain ⟨c, rest, heq, hc⟩ := literal_first marker digits hm hd
  have hspace := isSpace_of_hexDigit c hc
  rw [heq, List.dropWhile_cons_of_neg (by simp [hspace])]

theorem rdropWhile_digits (s digits : Str) (hd : IsHex digits) :
    (s ++ digits).rdropWhile isSpace = s ++ digits := by
  rw [List.rdropWhile_eq_self_iff]
  intro hne
  have hlast := isSpace_of_hexDigit _ (hd.2 _ (List.getLast_mem hd.1))
  rw [List.getLast_append_of_ne_nil hne hd.1, hlast]
  exact Bool.false_ne_true

theorem strip_literal (before sign marker digits after : Str) (apply : Int → Int) (hbefore : Blank before)
    (hafter : Blank after) (hs : SignPart sign apply) (hm : IsMarker marker) (hd : IsHex digits) :
    strip (before ++ (sign ++ (marker ++ digits)) ++ after) = sign ++ (marker ++ digits) := by
  apply strip_around before _ after hbefore hafter
  · cases hs with
    | none => exact dropWhile_literal marker digits hm hd
    | plus gap => rfl
    | minus gap => rfl
  · rw [← List.append_assoc]
    exact rdropWhile_digits _ digits hd
  · have hne := hd.1
    simp [hne]

theorem int16_of_strip (s sign marker digits : Str) (apply : Int → Int)
    (hstrip : strip s = sign ++ (marker ++ digits)) (hs : SignPart sign apply) (hm : IsMarker marker)
    (hd : IsHex digits) : int16 s = .ok (apply (hexValue digits)) := by
  have hmagnitude : prefixedMagnitude (marker ++ digits) = .ok (hexValue digits) :=
    (prefixedMagnitude_eq_ok_iff _ _).mpr ⟨marker, digits, rfl, hm, hd, rfl⟩
  have hgap : ∀ gap : Str, Blank gap → (gap ++ (marker ++ digits)).dropWhile isSpace = marker ++ digits := by
    intro gap hg
    rw [List.dropWhile_append_of_pos hg, dropWhile_literal marker digits hm hd]
  unfold int16
  rw [hstrip]
  cases hs with
  | none =>
      obtain ⟨c, rest, heq, hc⟩ := literal_first marker digits hm hd
      rw [List.nil_append, heq]
      rw [heq] at hmagnitude
      split
      · rename_i hplus
        cases hplus
        exact absurd hc (by decide)
      · rename_i hminus
        cases hminus
        exact absurd hc (by decide)
      · exact hmagnitude
  | plus gap h =>
      simp only [List.cons_append, hgap gap h, hmagnitude, id]
  | minus gap h =>
      simp only [List.cons_append, hgap gap h, hmagnitude, Except.map]

-- int(s, 16) takes exactly the literals.
theorem int16_eq_ok_iff (s : Str) (n : Int) : int16 s = .ok n ↔ IntLiteral s n := by
  constructor
  · intro h
    obtain ⟨before, after, hbefore, hafter, hs⟩ := exists_strip s
    unfold int16 at h
    split at h
    · rename_i literal hstrip
      obtain ⟨marker, digits, hl, hm, hd, rfl⟩ := (prefixedMagnitude_eq_ok_iff _ _).mp h
      refine ⟨before, '+' :: literal.takeWhile isSpace, marker, digits, after, id, ?_, hbefore, hafter,
        .plus _ (blank_takeWhile literal), hm, hd, rfl⟩
      rw [← hl, List.cons_append, List.takeWhile_append_dropWhile, ← hstrip]
      exact hs
    · rename_i literal hstrip
      cases hp : prefixedMagnitude (literal.dropWhile isSpace) with
      | error e =>
          rw [hp] at h
          cases h
      | ok magnitude =>
          rw [hp] at h
          obtain rfl : -magnitude = n := Except.ok.inj h
          obtain ⟨marker, digits, hl, hm, hd, rfl⟩ := (prefixedMagnitude_eq_ok_iff _ _).mp hp
          refine ⟨before, '-' :: literal.takeWhile isSpace, marker, digits, after, (- ·), ?_, hbefore,
            hafter, .minus _ (blank_takeWhile literal), hm, hd, rfl⟩
          rw [← hl, List.cons_append, List.takeWhile_append_dropWhile, ← hstrip]
          exact hs
    · obtain ⟨marker, digits, hl, hm, hd, rfl⟩ := (prefixedMagnitude_eq_ok_iff _ _).mp h
      refine ⟨before, [], marker, digits, after, id, ?_, hbefore, hafter, .none, hm, hd, rfl⟩
      rw [← hl]
      exact hs
  · rintro ⟨before, sign, marker, digits, after, apply, rfl, hbefore, hafter, hs, hm, hd, rfl⟩
    exact int16_of_strip _ sign marker digits apply
      (strip_literal before sign marker digits after apply hbefore hafter hs hm hd) hs hm hd

-- A literal has a digit, so that its line is not blank.
theorem IntLiteral.not_blank {line : Str} {n : Int} (h : IntLiteral line n) : ¬Blank line := by
  intro hb
  have hnil : int16 line = .error .valueError := by
    rw [int16, strip_of_blank line hb]
    rfl
  rw [(int16_eq_ok_iff line n).mpr h] at hnil
  cases hnil

theorem int16_error (s : Str) (e : PyError) (h : int16 s = .error e) : e = .valueError := by
  unfold int16 at h
  split at h
  · exact prefixedMagnitude_error _ e h
  · rename_i literal hstrip
    cases hp : prefixedMagnitude (literal.dropWhile isSpace) with
    | error e' =>
        rw [hp] at h
        obtain rfl : e' = e := Except.error.inj h
        exact prefixedMagnitude_error _ e' hp
    | ok magnitude =>
        rw [hp] at h
        cases h
  · exact prefixedMagnitude_error _ e h

theorem int16_rstrip (s : Str) : int16 (rstrip s) = int16 s := by
  rw [int16, strip_rstrip, ← int16]

end MesosPoc.Python
