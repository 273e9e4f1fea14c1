import MesosPoc.Python
import Mathlib.Order.Defs.LinearOrder
import Mathlib.Order.Basic

namespace MesosPoc

namespace Calendar

def isLeap (year : Nat) : Bool :=
  year % 4 = 0 ∧ (year % 100 ≠ 0 ∨ year % 400 = 0)

def daysInMonth (year month : Nat) : Nat :=
  if month = 2 then if isLeap year then 29 else 28
  else if month = 4 ∨ month = 6 ∨ month = 9 ∨ month = 11 then 30
  else 31

end Calendar

-- datetime.datetime
structure DateTime where
  year : Nat
  month : Nat
  day : Nat
  hour : Nat
  minute : Nat
  second : Nat
  microsecond : Nat
  validYear : 1 ≤ year ∧ year ≤ 9999
  validMonth : 1 ≤ month ∧ month ≤ 12
  validDay : 1 ≤ day ∧ day ≤ Calendar.daysInMonth year month
  validTime : hour < 24 ∧ minute < 60 ∧ second < 60 ∧ microsecond < 1000000
deriving DecidableEq

namespace DateTime

open Python

def min : DateTime where
  year := 1
  month := 1
  day := 1
  hour := 0
  minute := 0
  second := 0
  microsecond := 0
  validYear := by decide
  validMonth := by decide
  validDay := by decide
  validTime := by decide

-- The fields as the digits of one number: later times have larger ones.
def rank (t : DateTime) : Nat :=
  (((((t.year * 13 + t.month) * 32 + t.day) * 24 + t.hour) * 60 + t.minute) * 60 + t.second) *
    1000000 + t.microsecond

theorem daysInMonth_le (year month : Nat) : Calendar.daysInMonth year month ≤ 31 := by
  unfold Calendar.daysInMonth
  split
  · split <;> omega
  · split <;> omega

theorem rank_injective : Function.Injective rank := by
  intro s t h
  obtain ⟨y, mo, d, h', mi, sec, us, hy, hmo, hd, ht⟩ := s
  obtain ⟨y', mo', d', h'', mi', sec', us', hy', hmo', hd', ht'⟩ := t
  have hdays := daysInMonth_le y mo
  have hdays' := daysInMonth_le y' mo'
  simp only [rank] at h
  have : y = y' ∧ mo = mo' ∧ d = d' ∧ h' = h'' ∧ mi = mi' ∧ sec = sec' ∧ us = us' := by omega
  obtain ⟨rfl, rfl, rfl, rfl, rfl, rfl, rfl⟩ := this
  rfl

instance : LinearOrder DateTime := LinearOrder.lift' rank rank_injective

instance : PartialOrder DateTime := LinearOrder.toPartialOrder

theorem le_iff_rank (s t : DateTime) : s ≤ t ↔ s.rank ≤ t.rank := Iff.rfl

theorem min_le (t : DateTime) : min ≤ t := by
  have hy := t.validYear
  have hmo := t.validMonth
  have hd := t.validDay
  rw [le_iff_rank]
  simp only [rank, min]
  omega

theorem year_le_of_le (s t : DateTime) (h : s ≤ t) : s.year ≤ t.year := by
  have hmo := s.validMonth
  have hmo' := t.validMonth
  have hd := s.validDay
  have hd' := t.validDay
  have hdays := daysInMonth_le s.year s.month
  have hdays' := daysInMonth_le t.year t.month
  have ht := s.validTime
  have ht' := t.validTime
  rw [le_iff_rank] at h
  simp only [rank] at h
  omega

-- The constructor datetime.datetime(...).
def make (year month day hour minute second : Nat) : Except PyError DateTime :=
  if h : (1 ≤ year ∧ year ≤ 9999) ∧ (1 ≤ month ∧ month ≤ 12) ∧
      (1 ≤ day ∧ day ≤ Calendar.daysInMonth year month) ∧ hour < 24 ∧ minute < 60 ∧ second < 60 then
    .ok { year, month, day, hour, minute, second, microsecond := 0,
          validYear := h.1, validMonth := h.2.1, validDay := h.2.2.1,
          validTime := ⟨h.2.2.2.1, h.2.2.2.2.1, h.2.2.2.2.2, by decide⟩ }
  else .error .valueError

-- strftime refuses years before 1900. Its text is not needed.
def strftime (t : DateTime) : Except PyError Unit :=
  if t.year < 1900 then .error .valueError else .ok ()

-- The directives of strptime. Each is followed by a literal that is no digit, so
-- that a field takes all digits up to it.
def yearField (s : Str) : Option (Nat × Str) :=
  let digits := s.takeWhile isDigit
  if digits.length = 4 then some (decimalValue digits, s.dropWhile isDigit) else none

def field (low high : Nat) (s : Str) : Option (Nat × Str) :=
  let digits := s.takeWhile isDigit
  if (digits.length = 1 ∨ digits.length = 2) ∧ low ≤ decimalValue digits ∧ decimalValue digits ≤ high then
    some (decimalValue digits, s.dropWhile isDigit)
  else none

-- A day may be written with a blank for its first digit.
def dayField : Str → Option (Nat × Str)
  | ' ' :: rest => if (rest.takeWhile isDigit).length = 1 then field 1 9 rest else none
  | s => field 1 31 s

-- A literal of the format, in either case.
def literal (c : Char) : Str → Option Str
  | [] => none
  | d :: rest => if d.toUpper = c then some rest else none

-- strptime(s, "%Y-%m-%dT%H:%M:%SZ")
def strptime (s : Str) : Except PyError DateTime :=
  let fields : Option (Except PyError DateTime) := do
    let (year, s) ← yearField s
    let s ← literal '-' s
    let (month, s) ← field 1 12 s
    let s ← literal '-' s
    let (day, s) ← dayField s
    let s ← literal 'T' s
    let (hour, s) ← field 0 23 s
    let s ← literal ':' s
    let (minute, s) ← field 0 59 s
    let s ← literal ':' s
    let (second, s) ← field 0 61 s
    let s ← literal 'Z' s
    if s = [] then some (make year month day hour minute second) else none
  fields.getD (.error .valueError)

end DateTime

end MesosPoc
