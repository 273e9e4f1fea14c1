import MesosPoc.Datetime
import Mathlib.Order.Lattice

namespace MesosPoc.DateTime

open Python

def twoDigits (n : Nat) : Str :=
  [Nat.digitChar (n / 10), Nat.digitChar (n % 10)]

def fourDigits (n : Nat) : Str :=
  twoDigits (n / 100) ++ twoDigits (n % 100)

-- The second in which t lies.
def cut (t : DateTime) : DateTime :=
  { t with
    microsecond := 0
    validTime := ⟨t.validTime.1, t.validTime.2.1, t.validTime.2.2.1, by decide⟩ }

-- How the API server prints t, for which strptime has the format.
def print (t : DateTime) : Str :=
  fourDigits t.year ++ '-' :: (twoDigits t.month ++ '-' :: (twoDigits t.day ++ 'T' ::
    (twoDigits t.hour ++ ':' :: (twoDigits t.minute ++ ':' :: (twoDigits t.second ++ ['Z'])))))

section Digits

theorem isDigit_digitChar : ∀ d < 10, isDigit (Nat.digitChar d) = true := by decide

theorem value_digitChar : ∀ d < 10, (Nat.digitChar d).toNat - '0'.toNat = d := by decide

theorem isDigit_of_mem_twoDigits (n : Nat) (hn : n < 100) (c : Char) (hc : c ∈ twoDigits n) :
    isDigit c = true := by
  have htens := isDigit_digitChar (n / 10) (by omega)
  have hones := isDigit_digitChar (n % 10) (by omega)
  rcases List.mem_cons.mp hc with rfl | hc
  · exact htens
  · rw [List.mem_singleton.mp hc]
    exact hones

theorem isDigit_of_mem_fourDigits (n : Nat) (hn : n < 10000) (c : Char) (hc : c ∈ fourDigits n) :
    isDigit c = true := by
  rcases List.mem_append.mp hc with h | h
  · exact isDigit_of_mem_twoDigits _ (by omega) c h
  · exact isDigit_of_mem_twoDigits _ (by omega) c h

theorem decimalValue_append (high low : Str) :
    decimalValue (high ++ low) = low.foldl (fun value c => 10 * value + (c.toNat - '0'.toNat))
      (decimalValue high) :=
  List.foldl_append

theorem foldl_twoDigits (value n : Nat) (hn : n < 100) :
    (twoDigits n).foldl (fun value c => 10 * value + (c.toNat - '0'.toNat)) value = 100 * value + n := by
  have htens := value_digitChar (n / 10) (by omega)
  have hones := value_digitChar (n % 10) (by omega)
  simp only [twoDigits, List.foldl_cons, List.foldl_nil, htens, hones]
  omega

theorem decimalValue_twoDigits (n : Nat) (hn : n < 100) : decimalValue (twoDigits n) = n := by
  have h := foldl_twoDigits 0 n hn
  rw [decimalValue, h]
  omega

theorem decimalValue_fourDigits (n : Nat) (hn : n < 10000) : decimalValue (fourDigits n) = n := by
  have hhigh := decimalValue_twoDigits (n / 100) (by omega)
  rw [fourDigits, decimalValue_append, hhigh, foldl_twoDigits _ _ (by omega)]
  omega

-- A field ends at the first character that is no digit.
theorem takeWhile_digits (digits rest : Str) (c : Char) (hd : ∀ d ∈ digits, isDigit d = true)
    (hc : isDigit c = false) : (digits ++ c :: rest).takeWhile isDigit = digits := by
  rw [List.takeWhile_append_of_pos hd, List.takeWhile_cons_of_neg (by simp [hc]), List.append_nil]

theorem dropWhile_digits (digits rest : Str) (c : Char) (hd : ∀ d ∈ digits, isDigit d = true)
    (hc : isDigit c = false) : (digits ++ c :: rest).dropWhile isDigit = c :: rest := by
  rw [List.dropWhile_append_of_pos hd, List.dropWhile_cons_of_neg (by simp [hc])]

end Digits

section Fields

variable (n : Nat) (c : Char) (rest : Str) (hc : isDigit c = false)

include hc

theorem yearField_fourDigits (hn : n < 10000) :
    yearField (fourDigits n ++ c :: rest) = some (n, c :: rest) := by
  have hd := isDigit_of_mem_fourDigits n hn
  have hvalue := decimalValue_fourDigits n hn
  rw [yearField, takeWhile_digits _ rest c hd hc, dropWhile_digits _ rest c hd hc, hvalue]
  rfl

theorem field_twoDigits (low high : Nat) (hn : n < 100) (hlow : low ≤ n) (hhigh : n ≤ high) :
    field low high (twoDigits n ++ c :: rest) = some (n, c :: rest) := by
  have hd := isDigit_of_mem_twoDigits n hn
  have hvalue := decimalValue_twoDigits n hn
  rw [field, takeWhile_digits _ rest c hd hc, dropWhile_digits _ rest c hd hc, hvalue]
  exact if_pos ⟨Or.inr rfl, hlow, hhigh⟩

theorem dayField_twoDigits (hlow : 1 ≤ n) (hhigh : n ≤ 31) :
    dayField (twoDigits n ++ c :: rest) = some (n, c :: rest) := by
  have hfield := field_twoDigits n c rest hc 1 31 (by omega) hlow hhigh
  have hhead := isDigit_digitChar (n / 10) (by omega)
  rw [dayField, hfield]
  -- The first digit is no blank.
  intro s hs
  have hblank : Nat.digitChar (n / 10) = ' ' := (List.cons.inj hs).1
  rw [hblank] at hhead
  cases hhead

end Fields

theorem make_cut (t : DateTime) :
    make t.year t.month t.day t.hour t.minute t.second = .ok (cut t) := by
  obtain ⟨hhour, hminute, hsecond, -⟩ := t.validTime
  exact dif_pos ⟨t.validYear, t.validMonth, t.validDay, hhour, hminute, hsecond⟩

theorem literal_self (c : Char) (rest : Str) (hc : c.toUpper = c) : literal c (c :: rest) = some rest :=
  if_pos hc

-- What strptime reads of a printed time is its second.
theorem strptime_print (t : DateTime) : strptime (print t) = .ok (cut t) := by
  obtain ⟨hyear, hyear'⟩ := t.validYear
  obtain ⟨hmonth, hmonth'⟩ := t.validMonth
  obtain ⟨hday, hday'⟩ := t.validDay
  have hdays := daysInMonth_le t.year t.month
  obtain ⟨hhour, hminute, hsecond, -⟩ := t.validTime
  have hy := yearField_fourDigits t.year '-'
  have hmo := field_twoDigits t.month '-'
  have hd := dayField_twoDigits t.day 'T'
  have hh := field_twoDigits t.hour ':'
  have hmi := field_twoDigits t.minute ':'
  have hs := field_twoDigits t.second 'Z'
  unfold strptime print
  rw [hy _ rfl (by omega), Option.bind_eq_bind, Option.bind_some]
  simp only [Option.bind_eq_bind, Option.bind_some, literal_self '-' _ rfl,
    hmo _ rfl 1 12 (by omega) hmonth hmonth', hd _ rfl hday (by omega), literal_self 'T' _ rfl,
    hh _ rfl 0 23 (by omega) (by omega) (by omega), literal_self ':' _ rfl,
    hmi _ rfl 0 59 (by omega) (by omega) (by omega), hs _ rfl 0 61 (by omega) (by omega) (by omega),
    literal_self 'Z' _ rfl, if_true, Option.getD_some, make_cut]

section Cutting

theorem rank_mod (t : DateTime) : t.rank % 1000000 = t.microsecond := by
  have ht := t.validTime.2.2.2
  rw [rank]
  omega

theorem rank_cut (t : DateTime) : (cut t).rank = t.rank / 1000000 * 1000000 := by
  have ht := t.validTime.2.2.2
  simp only [rank, cut]
  omega

theorem cut_min : cut min = min := rfl

theorem cut_mono : Monotone cut := by
  intro s t h
  have hdiv := Nat.div_le_div_right (c := 1000000) ((le_iff_rank s t).mp h)
  rw [le_iff_rank, rank_cut, rank_cut]
  exact Nat.mul_le_mul_right _ hdiv

theorem cut_eq_iff (s t : DateTime) : cut s = cut t ↔ s.rank / 1000000 = t.rank / 1000000 := by
  rw [← rank_injective.eq_iff, rank_cut, rank_cut]
  exact Nat.mul_left_inj (by decide)

-- Of the times not before b those in the second of b, unless b begins it, are before
-- b when they are cut.
theorem le_cut_iff (b t : DateTime) (h : b ≤ t) : b ≤ cut t ↔ b.microsecond = 0 ∨ cut b ≠ cut t := by
  have hrank := (le_iff_rank b t).mp h
  rw [le_iff_rank, rank_cut, Ne, cut_eq_iff, ← rank_mod b]
  omega

end Cutting

end MesosPoc.DateTime
