import MesosPoc.Python

namespace MesosPoc.Python

theorem hexDigit_of_isSpace (c : Char) (h : isSpace c = true) : hexDigit c = none := by
  simp only [isSpace, Bool.or_eq_true, beq_iff_eq] at h
  rcases h with ((((rfl | rfl) | rfl) | rfl) | rfl) | rfl <;> decide

theorem isSpace_of_hexDigit (c : Char) (h : (hexDigit c).isSome) : isSpace c = false := by
  by_contra hs
  rw [hexDigit_of_isSpace c (by simpa using hs)] at h
  simp at h

theorem dropWhile_isSpace_hex (digits : Str) (h : ∀ c ∈ digits, (hexDigit c).isSome) :
    digits.dropWhile isSpace = digits := by
  cases digits with
  | nil => rfl
  | cons c rest => simp [isSpace_of_hexDigit c (h c (by simp))]

theorem rdropWhile_isSpace_hex (digits : Str) (h : ∀ c ∈ digits, (hexDigit c).isSome) :
    digits.rdropWhile isSpace = digits := by
  rw [List.rdropWhile_eq_self_iff]
  intro hne
  simp [isSpace_of_hexDigit _ (h _ (List.getLast_mem hne))]

theorem rstrip_hex_crlf (digits : Str) (h : ∀ c ∈ digits, (hexDigit c).isSome) :
    rstrip (digits ++ crlf) = digits := by
  have hsplit : digits ++ crlf = digits ++ ['\r'] ++ ['\n'] := by simp [crlf]
  rw [rstrip, hsplit, List.rdropWhile_concat_pos _ _ _ (by decide),
    List.rdropWhile_concat_pos _ _ _ (by decide)]
  exact rdropWhile_isSpace_hex digits h

theorem prefixedMagnitude_hex (digits : Str) (h : IsHex digits) :
    prefixedMagnitude digits = .ok (hexValue digits) := by
  have hx : ∀ rest : Str, digits ≠ '0' :: 'x' :: rest := by
    rintro rest rfl
    exact absurd (h.2 'x' (by simp)) (by decide)
  have hX : ∀ rest : Str, digits ≠ '0' :: 'X' :: rest := by
    rintro rest rfl
    exact absurd (h.2 'X' (by simp)) (by decide)
  unfold prefixedMagnitude
  split
  · exact absurd rfl (hx _)
  · exact absurd rfl (hX _)
  · simp [hexMagnitude, h]

-- A string of hex digits is read as the number it denotes.
theorem int16_hex (digits : Str) (h : IsHex digits) : int16 digits = .ok (hexValue digits) := by
  have hstrip : strip digits = digits := by
    rw [strip, dropWhile_isSpace_hex digits h.2, rdropWhile_isSpace_hex digits h.2]
  have hplus : ∀ rest : Str, digits ≠ '+' :: rest := by
    rintro rest rfl
    exact absurd (h.2 '+' (by simp)) (by decide)
  have hminus : ∀ rest : Str, digits ≠ '-' :: rest := by
    rintro rest rfl
    exact absurd (h.2 '-' (by simp)) (by decide)
  unfold int16
  rw [hstrip]
  split
  · exact absurd rfl (hplus _)
  · exact absurd rfl (hminus _)
  · exact prefixedMagnitude_hex digits h

theorem newline_notMem_hex (digits : Str) (h : ∀ c ∈ digits, (hexDigit c).isSome) :
    '\n' ∉ digits := by
  intro hm
  exact absurd (h '\n' hm) (by decide)

theorem endsWith_crlf_append (s : Str) : endsWith (s ++ crlf) crlf = true := by
  simp [endsWith]

theorem endsWith_crlf_of_newline_notMem (s : Str) (h : '\n' ∉ s) : endsWith s crlf = false := by
  by_contra he
  have hs : crlf <:+ s := by simpa [endsWith] using he
  exact h (hs.subset (by decide))

end MesosPoc.Python
