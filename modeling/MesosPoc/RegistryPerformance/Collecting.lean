import MesosPoc.RegistryPerformance
import MesosPoc.Shell.Fields

namespace MesosPoc.RegistryPerformance

-- A line of msg.txt with the time of a push.
def timeLine (blanks time : Nat) (closing : Str) : Str :=
  List.replicate blanks ' ' ++ label ++ [' '] ++ (Nat.toDigits 10 time ++ closing)

-- The lines of msg.txt in which Ansible prints the times of the clients, one in a
-- line, among other lines.
inductive Printed : List Str → List Nat → Prop
  | nil : Printed [] []
  | other (line : Str) (lines : List Str) (times : List Nat) (hline : isLabelled line = false)
      (h : Printed lines times) : Printed (line :: lines) times
  | time (blanks time : Nat) (closing : Str) (lines : List Str) (times : List Nat)
      (hclosing : closing = ['"'] ∨ closing = ['"', ',']) (h : Printed lines times) :
      Printed (timeLine blanks time closing :: lines) (time :: times)

section Digits

variable {c : Char} (hc : c.isDigit = true)

include hc

theorem digit_toNat : 48 ≤ c.toNat ∧ c.toNat ≤ 57 := by
  simpa [Char.isDigit, UInt32.le_iff_toNat_le] using hc

theorem digit_not_punct : isPunct c = false := by
  have h := digit_toNat hc
  simp only [isPunct, Char.le_def, UInt32.le_iff_toNat_le, decide_eq_false_iff_not]
  change ¬((33 ≤ c.toNat ∧ c.toNat ≤ 47) ∨ (58 ≤ c.toNat ∧ c.toNat ≤ 64) ∨ (91 ≤ c.toNat ∧ c.toNat ≤ 96) ∨
    (123 ≤ c.toNat ∧ c.toNat ≤ 126))
  omega

theorem digit_not_blank : Shell.isBlank c = false := by
  have hspace : c ≠ ' ' := by rintro rfl; cases hc
  have htab : c ≠ '\t' := by rintro rfl; cases hc
  have hline : c ≠ '\n' := by rintro rfl; cases hc
  simp [Shell.isBlank, hspace, htab, hline]

end Digits

section Sed

theorem removeLabels_skip (text rest : Str) : removeLabels text.length (text ++ rest) = removeLabels 0 rest := by
  induction text with
  | nil => rfl
  | cons c text ih => rw [List.length_cons, List.cons_append, removeLabels, ih]

theorem removeLabels_match {text rest : Str} (hne : text ≠ []) (h : labelLength (text ++ rest) = some text.length) :
    removeLabels 0 (text ++ rest) = removeLabels 0 rest := by
  cases text with
  | nil => exact absurd rfl hne
  | cons c text =>
      rw [List.cons_append] at h ⊢
      rw [removeLabels, h]
      exact removeLabels_skip text rest

theorem labelLength_labelled (blanks : Nat) (rest : Str) :
    labelLength (List.replicate blanks ' ' ++ (label ++ [' '] ++ rest)) = some (blanks + (label.length + 1)) := by
  have hhead : (label ++ [' '] ++ rest).takeWhile (· = ' ') = [] := rfl
  have hblanks : (List.replicate blanks ' ' ++ (label ++ [' '] ++ rest)).takeWhile (· = ' ') =
      List.replicate blanks ' ' := by
    rw [List.takeWhile_append_of_pos, hhead, List.append_nil]
    intro c hc
    simpa using (List.mem_replicate.mp hc).2
  have hdrop : (List.replicate blanks ' ' ++ (label ++ [' '] ++ rest)).drop blanks = label ++ [' '] ++ rest :=
    List.drop_left' (List.length_replicate ..)
  have hlabel : (label ++ [' ']).isPrefixOf (label ++ [' '] ++ rest) = true :=
    List.isPrefixOf_iff_prefix.mpr (List.prefix_append _ rest)
  simp only [labelLength, hblanks, List.length_replicate, hdrop, hlabel, if_true]

theorem labelLength_cons {c : Char} (hblank : c ≠ ' ') (hquote : c ≠ '"') (rest : Str) :
    labelLength (c :: rest) = none := by
  have hblanks : (c :: rest).takeWhile (· = ' ') = [] := List.takeWhile_cons_of_neg (by simpa using hblank)
  have hlabel : (label ++ [' ']).isPrefixOf (c :: rest) = false := by
    rw [Bool.eq_false_iff]
    intro h
    obtain ⟨tail, htail⟩ := List.isPrefixOf_iff_prefix.mp h
    exact hquote (List.cons.inj htail).1.symm
  simp only [labelLength, hblanks, List.length_nil, List.drop_zero, hlabel, Bool.false_eq_true, if_false]

theorem removeLabels_digits (digits closing : Str) (h : ∀ c ∈ digits, c.isDigit = true) :
    removeLabels 0 (digits ++ closing) = digits ++ removeLabels 0 closing := by
  induction digits with
  | nil => rfl
  | cons c digits ih =>
      obtain ⟨hc, hdigits⟩ := List.forall_mem_cons.mp h
      have hblank : c ≠ ' ' := by
        rintro rfl
        cases hc
      have hquote : c ≠ '"' := by
        rintro rfl
        cases hc
      rw [List.cons_append, removeLabels, labelLength_cons hblank hquote, ih hdigits]
      rfl

theorem toDigits_isDigit (n : Nat) : ∀ c ∈ Nat.toDigits 10 n, c.isDigit = true :=
  fun _ hc => Nat.isDigit_of_mem_toDigits (by omega) (by omega) hc

theorem removeLabels_timeLine (blanks time : Nat) {closing : Str} (h : closing = ['"'] ∨ closing = ['"', ',']) :
    removeLabels 0 (timeLine blanks time closing) = Nat.toDigits 10 time ++ closing := by
  have hlength : (List.replicate blanks ' ' ++ (label ++ [' '])).length = blanks + (label.length + 1) := by
    rw [List.length_append, List.length_append, List.length_replicate]
    rfl
  have hne : List.replicate blanks ' ' ++ (label ++ [' ']) ≠ [] := by
    apply List.ne_nil_of_length_pos
    omega
  have hclosing : removeLabels 0 closing = closing := by
    rcases h with rfl | rfl <;> rfl
  have hmatch := labelLength_labelled blanks (Nat.toDigits 10 time ++ closing)
  rw [← List.append_assoc, ← hlength] at hmatch
  rw [timeLine, List.append_assoc (List.replicate blanks ' '), removeLabels_match hne hmatch,
    removeLabels_digits _ _ (toDigits_isDigit time), hclosing]

theorem removePunct_time (time : Nat) {closing : Str} (h : closing = ['"'] ∨ closing = ['"', ',']) :
    removePunct (Nat.toDigits 10 time ++ closing) = Nat.toDigits 10 time := by
  have hdigits : (Nat.toDigits 10 time).filter (fun c => !isPunct c) = Nat.toDigits 10 time := by
    apply List.filter_eq_self.mpr
    intro c hc
    rw [digit_not_punct (toDigits_isDigit time c hc)]
    rfl
  have hclosing : closing.filter (fun c => !isPunct c) = [] := by
    rcases h with rfl | rfl <;> rfl
  rw [removePunct, List.filter_append, hdigits, hclosing, List.append_nil]

theorem isLabelled_timeLine (blanks time : Nat) (closing : Str) : isLabelled (timeLine blanks time closing) = true := by
  apply List.any_eq_true.mpr
  refine ⟨label ++ ([' '] ++ (Nat.toDigits 10 time ++ closing)), ?_, ?_⟩
  · apply (List.mem_tails _ _).mpr
    refine ⟨List.replicate blanks ' ', ?_⟩
    simp only [timeLine, List.append_assoc]
  · exact List.isPrefixOf_iff_prefix.mpr (List.prefix_append _ _)

end Sed

section Collecting

-- The lines that are left of msg.txt are the times.
theorem printed_lines {msgTxt : List Str} {times : List Nat} (h : Printed msgTxt times) :
    ((msgTxt.filter isLabelled).map (removeLabels 0)).map removePunct = times.map (Nat.toDigits 10) := by
  induction h with
  | nil => rfl
  | other line lines times hline _ ih => rw [List.filter_cons_of_neg (by simp [hline]), ih]
  | time blanks time closing lines times hclosing _ ih =>
      rw [List.filter_cons_of_pos (isLabelled_timeLine blanks time closing), List.map_cons, List.map_cons, ih,
        removeLabels_timeLine blanks time hclosing, removePunct_time time hclosing]
      rfl

theorem sortKey_toDigits (n : Nat) : sortKey (Nat.toDigits 10 n) = n := by
  have hblanks : (Nat.toDigits 10 n).dropWhile Shell.isBlank = Nat.toDigits 10 n := by
    apply List.dropWhile_eq_self_iff.mpr
    intro hpos
    rw [digit_not_blank (toDigits_isDigit n _ (List.getElem_mem hpos))]
    exact Bool.false_ne_true
  have hdigits : (Nat.toDigits 10 n).takeWhile Char.isDigit = Nat.toDigits 10 n :=
    List.takeWhile_eq_self_iff.mpr (toDigits_isDigit n)
  rw [sortKey, hblanks, hdigits, Nat.ofDigitChars_ten_toDigits]

def sorted (times : List Nat) : List Nat :=
  times.mergeSort (· ≤ ·)

theorem sorted_perm (times : List Nat) : (sorted times).Perm times :=
  List.mergeSort_perm times _

theorem sorted_pairwise (times : List Nat) : (sorted times).Pairwise (· ≤ ·) := by
  have h : (sorted times).Pairwise fun first second => decide (first ≤ second) = true :=
    List.pairwise_mergeSort (by simpa using fun _ _ _ => Nat.le_trans) (by simpa using Nat.le_total) times
  simpa using h

theorem length_sorted (times : List Nat) : (sorted times).length = times.length :=
  (sorted_perm times).length_eq

theorem textLe_refl (text : Str) : textLe text text = true := by
  induction text with
  | nil => rfl
  | cons a text ih => simp [textLe, ih]

theorem sortNumeric_toDigits (times : List Nat) :
    sortNumeric (times.map (Nat.toDigits 10)) = (sorted times).map (Nat.toDigits 10) := by
  symm
  apply List.map_mergeSort
  intro first _ second _
  rw [sortKey_toDigits, sortKey_toDigits, decide_eq_decide]
  constructor
  · intro h
    rcases Nat.lt_or_eq_of_le h with hlt | rfl
    · exact .inl hlt
    · exact .inr ⟨rfl, textLe_refl _⟩
  · rintro (hlt | ⟨heq, -⟩)
    · exact le_of_lt hlt
    · exact le_of_eq heq

def collected (times : List Nat) : Milliseconds where
  totalImageCount := times.length
  sortedMilliseconds := (sorted times).map (Nat.toDigits 10)

theorem milliseconds_printed {msgTxt : List Str} {times : List Nat} (h : Printed msgTxt times) :
    getMillisecondsArrayFromMsgFile msgTxt = collected times := by
  have hfields : Shell.fields (['\n'].intercalate (times.map (Nat.toDigits 10))) = times.map (Nat.toDigits 10) := by
    apply Shell.fields_lines
    intro word hword
    obtain ⟨time, -, rfl⟩ := List.mem_map.mp hword
    exact ⟨Nat.toDigits_ne_nil, fun c hc => digit_not_blank (toDigits_isDigit time c hc)⟩
  simp only [getMillisecondsArrayFromMsgFile, printed_lines h, hfields, List.length_map, sortNumeric_toDigits, collected]

end Collecting

end MesosPoc.RegistryPerformance
