import MesosPoc.RegistryPerformance.Collecting
import MesosPoc.OrderStatistic

namespace MesosPoc.RegistryPerformance

open OrderStatistic

def reportLine (percent time : Nat) : Str :=
  [' '].intercalate [Nat.toDigits 10 percent ++ ['%'], "images pushed in".toList, Nat.toDigits 10 time,
    "milliseconds".toList]

-- What a line that is printed says is true of the times.
def Honest (times : List Nat) (percent : Nat) (milliseconds : Milliseconds) : Prop :=
  ∀ line, getTimeByPercent milliseconds percent = some line →
    ∃ index time : Nat, percentIndex milliseconds percent = index ∧
      index < milliseconds.sortedMilliseconds.length ∧ line = reportLine percent time ∧ time ∈ times ∧
      times.length * percent ≤ 100 * atMost times time ∧ (percent = 100 → ∀ t ∈ times, t ≤ time)

section Reports

variable {times : List Nat} {percent : Nat}

theorem percentIndex_collected : percentIndex (collected times) percent = (times.length * percent / 100 : Nat) - 1 := by
  rw [percentIndex, collected, ← Int.natCast_mul]
  rfl

-- Below a whole image nothing is printed.
theorem report_none (h : times.length * percent / 100 = 0) : getTimeByPercent (collected times) percent = none := by
  have hindex : ¬0 ≤ percentIndex (collected times) percent := by
    rw [percentIndex_collected, h]
    omega
  rw [getTimeByPercent]
  exact if_neg hindex

theorem report_some (hrank : 0 < times.length * percent / 100)
    (hk : times.length * percent / 100 - 1 < (sorted times).length) :
    getTimeByPercent (collected times) percent =
      some (reportLine percent (sorted times)[times.length * percent / 100 - 1]) := by
  have hindex : percentIndex (collected times) percent = (times.length * percent / 100 - 1 : Nat) := by
    rw [percentIndex_collected]
    omega
  have hitem : (collected times).sortedMilliseconds[times.length * percent / 100 - 1]? =
      some (Nat.toDigits 10 (sorted times)[times.length * percent / 100 - 1]) := by
    rw [collected, List.getElem?_map, List.getElem?_eq_getElem hk]
    rfl
  rw [getTimeByPercent]
  simp only [hindex, Int.natCast_nonneg, if_true, Int.toNat_natCast, hitem]
  rfl

theorem rank_lt (hrank : 0 < times.length * percent / 100) (hle : percent ≤ 100) :
    times.length * percent / 100 - 1 < (sorted times).length := by
  have hmul : times.length * percent ≤ times.length * 100 := Nat.mul_le_mul_left _ hle
  rw [length_sorted]
  omega

theorem reportLine_injective {time time' : Nat} (h : reportLine percent time = reportLine percent time') :
    time = time' := by
  simp only [reportLine, List.intercalate_cons_cons, List.append_assoc, List.append_cancel_left_eq] at h
  have hdigits := congrArg (fun digits => Nat.ofDigitChars 10 digits 0) (List.append_cancel_right h)
  simpa only [Nat.ofDigitChars_ten_toDigits] using hdigits

theorem honest_collected_iff (hrank : 0 < times.length * percent / 100) (hle : percent ≤ 100) :
    Honest times percent (collected times) ↔
      times.length * percent % 100 = 0 ∨ ∀ t ∈ times, atMost times t ≠ times.length * percent / 100 := by
  have hk := rank_lt hrank hle
  have hpairwise := sorted_pairwise times
  have hshare : times.length * percent ≤ 100 * (sorted times).length := by
    rw [length_sorted, Nat.mul_comm]
    exact Nat.mul_le_mul_right _ hle
  have hcovered := share_covered_iff hpairwise (show 0 < 100 by omega) hshare hrank hk
  simp only [atMost_perm (sorted_perm times), (sorted_perm times).mem_iff] at hcovered
  rw [← hcovered]
  have hreport := report_some hrank hk
  generalize htime : (sorted times)[times.length * percent / 100 - 1] = time at hreport ⊢
  constructor
  · intro h
    obtain ⟨_, time', -, -, hline, -, hshare', -⟩ := h _ hreport
    rw [reportLine_injective hline]
    exact hshare'
  · intro hcover line hline
    rw [hreport] at hline
    refine ⟨times.length * percent / 100 - 1, time, ?_, ?_, (Option.some.inj hline).symm, ?_, hcover, ?_⟩
    · rw [percentIndex_collected]
      omega
    · rw [collected, List.length_map]
      exact hk
    · rw [← (sorted_perm times).mem_iff, ← htime]
      exact List.getElem_mem hk
    · rintro rfl t ht
      rw [← htime]
      apply le_last hpairwise _ t ((sorted_perm times).mem_iff.mpr ht)
      rw [length_sorted] at hk ⊢
      omega

end Reports

-- The rank is rounded down, which leaves some pushes out, unless the times around
-- it are equal.
theorem honest_iff {msgTxt : List Str} {times : List Nat} {percent : Nat} (h : Printed msgTxt times)
    (hle : percent ≤ 100) :
    Honest times percent (getMillisecondsArrayFromMsgFile msgTxt) ↔
      times.length * percent % 100 = 0 ∨ ∀ t ∈ times, atMost times t ≠ times.length * percent / 100 := by
  rw [milliseconds_printed h]
  by_cases hrank : times.length * percent / 100 = 0
  · constructor
    · intro _
      right
      intro t ht
      have hone : 0 < atMost times t := List.countP_pos_iff.mpr ⟨t, ht, by simp⟩
      omega
    · intro _ line hline
      rw [report_none hrank] at hline
      cases hline
  · exact honest_collected_iff (by omega) hle

section Samples

-- What a client prints.
def printedLines (times : List Nat) : List Str :=
  "    \"msg\": [".toList :: times.map fun time => timeLine 8 time ['"', ',']

theorem printed_printedLines (times : List Nat) : Printed (printedLines times) times := by
  refine .other _ _ _ (by decide) ?_
  induction times with
  | nil => exact .nil
  | cons time times ih => exact .time 8 time _ _ _ (.inr rfl) ih

-- The twenty times of the README.
def documented : List Nat :=
  [143, 154, 155, 155, 160, 162, 164, 169, 179, 183, 183, 184, 186, 189, 194, 195, 195, 197, 201, 240]

end Samples

theorem documented_honest :
    Honest documented 90 (getMillisecondsArrayFromMsgFile (printedLines documented)) :=
  (honest_iff (printed_printedLines documented) (by decide)).mpr (.inl (by decide))

theorem half_of_three_misreported :
    getTimeByPercent (getMillisecondsArrayFromMsgFile (printedLines [1, 2, 3])) 50 =
        some "50% images pushed in 1 milliseconds".toList ∧
      ¬Honest [1, 2, 3] 50 (getMillisecondsArrayFromMsgFile (printedLines [1, 2, 3])) := by
  have hsorted : sorted [1, 2, 3] = [1, 2, 3] := List.mergeSort_of_pairwise (by decide)
  rw [milliseconds_printed (printed_printedLines [1, 2, 3])]
  refine ⟨?_, ?_⟩
  · rw [collected, hsorted]
    decide
  · intro h
    have hcases := (honest_collected_iff (by decide) (by decide)).mp h
    revert hcases
    decide

end MesosPoc.RegistryPerformance
