import MesosPoc.Python
import MesosPoc.Replace
import Mathlib.Data.Rat.Floor

namespace MesosPoc.Jinja

-- The filters and the loop that a template uses, as they are documented for Jinja2
-- under Python 2.

-- Halves go away from zero.
def round (value : Rat) : Rat :=
  if 0 ≤ value then ⌊value + 1 / 2⌋ else ⌈value - 1 / 2⌉

-- Truncates.
def int (value : Rat) : Int :=
  value.num.tdiv value.den

def str : Int → Str
  | .ofNat n => Nat.toDigits 10 n
  | .negSucc n => '-' :: Nat.toDigits 10 (n + 1)

def join (separator : Str) (items : List Str) : Str :=
  separator.intercalate items

def replace (old new value : Str) : Str :=
  Replace.replaceAll old new value

-- A loop whose body looks at loop.last.
def forLoop (body : Str → Bool → Str) : List Str → Str
  | [] => []
  | [item] => body item true
  | item :: next :: rest => body item false ++ forLoop body (next :: rest)

-- A loop whose body looks at loop.index, from an index on.
def forIndexed (body : Nat → Str → Str) (index : Nat) : List Str → Str
  | [] => []
  | item :: rest => body index item ++ forIndexed body (index + 1) rest

theorem int_natCast (n : Nat) : int (n : Rat) = n := by
  rw [int, Rat.num_natCast, Rat.den_natCast]
  exact Int.tdiv_one _

theorem round_half (n : Nat) : round ((n : Rat) / 2) = ((n + 1) / 2 : Nat) := by
  have hpos : (0 : Rat) ≤ (n : Rat) / 2 := by positivity
  have hsum : (n : Rat) / 2 + 1 / 2 = ((n + 1 : Nat) : Rat) / ((2 : Nat) : Rat) := by
    push_cast
    ring
  rw [round, if_pos hpos, hsum, Rat.floor_natCast_div_natCast]
  rfl

-- Where the separator ends with the character at which the text is split again.
theorem join_append (s : Str) (c : Char) (items : List Str) (h : items ≠ []) :
    join (s ++ [c]) items ++ s = [c].intercalate (items.map (· ++ s)) := by
  unfold join
  induction items with
  | nil => exact absurd rfl h
  | cons item rest ih =>
      cases rest with
      | nil => simp
      | cons next rest =>
          have hrest := ih (List.cons_ne_nil _ _)
          rw [List.map_cons] at hrest
          rw [List.intercalate_cons_cons, List.map_cons, List.map_cons, List.intercalate_cons_cons, ← hrest]
          simp only [List.append_assoc]

theorem forLoop_eq (text : Str → Str) (c : Char) (items : List Str) :
    forLoop (fun item last => text item ++ if last then [] else [c]) items = [c].intercalate (items.map text) := by
  induction items with
  | nil => rfl
  | cons item rest ih =>
      cases rest with
      | nil => simp [forLoop]
      | cons next rest =>
          rw [forLoop, ih, List.map_cons, List.map_cons, List.map_cons, List.intercalate_cons_cons,
            if_neg Bool.false_ne_true]

theorem forIndexed_past (text : Str → Str) (c : Char) (count index : Nat) (items : List Str) (h : count < index) :
    forIndexed (fun index item => if index ≤ count then text item ++ if index = count then [] else [c] else [])
      index items = [] := by
  induction items generalizing index with
  | nil => rfl
  | cons item rest ih =>
      rw [forIndexed, ih (index + 1) (by omega), if_neg (by omega)]
      rfl

-- The first items, where there are as many: the last one of them has no separator.
theorem forIndexed_eq (text : Str → Str) (c : Char) (count index : Nat) (items : List Str) (hindex : index ≤ count)
    (hitems : count < index + items.length) :
    forIndexed (fun index item => if index ≤ count then text item ++ if index = count then [] else [c] else [])
      index items = [c].intercalate ((items.take (count + 1 - index)).map text) := by
  induction items generalizing index with
  | nil =>
      rw [List.length_nil] at hitems
      omega
  | cons item rest ih =>
      rw [forIndexed, if_pos hindex]
      by_cases hlast : index = count
      · rw [if_pos hlast, forIndexed_past text c count (index + 1) rest (by omega), hlast, Nat.add_sub_cancel_left]
        simp
      · rw [List.length_cons] at hitems
        rw [if_neg hlast, ih (index + 1) (by omega) (by omega)]
        obtain ⟨more, hmore⟩ : ∃ more, count + 1 - index = more + 2 := ⟨count - 1 - index, by omega⟩
        have hrest : count + 1 - (index + 1) = more + 1 := by omega
        rw [hmore, hrest]
        cases rest with
        | nil =>
            rw [List.length_nil] at hitems
            omega
        | cons next rest =>
            rw [List.take_succ_cons, List.take_succ_cons, List.take_succ_cons, List.map_cons, List.map_cons,
              List.map_cons, List.intercalate_cons_cons]

theorem length_join (separator : Str) (items : List Str) :
    (join separator items).length = (items.map List.length).sum + separator.length * (items.length - 1) := by
  unfold join
  induction items with
  | nil => rfl
  | cons item rest ih =>
      cases rest with
      | nil => simp
      | cons next rest =>
          rw [List.intercalate_cons_cons, List.length_append, List.length_append, ih]
          simp only [List.map_cons, List.sum_cons, List.length_cons, Nat.add_sub_cancel]
          ring

end MesosPoc.Jinja
