import MesosPoc.Json

namespace MesosPoc.Json

open Python

-- What the scanners leave over.

theorem rest_of_map {α β : Type} {scanned : Option (α × Str)} {build : α → β} {value : β} {rest : Str}
    (h : (scanned.map fun (part, left) => (build part, left)) = some (value, rest)) :
    ∃ part, scanned = some (part, rest) := by
  obtain ⟨⟨part, left⟩, hscanned, hbuilt⟩ := Option.map_eq_some_iff.mp h
  obtain ⟨-, rfl⟩ := Prod.mk.inj hbuilt
  exact ⟨part, hscanned⟩

theorem length_skipBlanks_le (s : Str) : (skipBlanks s).length ≤ s.length :=
  List.length_dropWhile_le _ s

theorem scanUnits_consumes (s : Str) (skip : Nat) (units : List (Char ⊕ Nat)) (rest : Str)
    (h : scanUnits skip s = some (units, rest)) : rest.length < s.length := by
  induction s generalizing skip units with
  | nil => simp [scanUnits] at h
  | cons c tail ih =>
      have hlength : (c :: tail).length = tail.length + 1 := List.length_cons
      cases skip with
      | succ skip =>
          have hless := ih skip units h
          omega
      | zero =>
          unfold scanUnits at h
          split at h
          · obtain ⟨-, rfl⟩ : [] = units ∧ tail = rest := by simpa using h
            omega
          · split at h
            · split at h
              · obtain ⟨code, -, h⟩ := Option.bind_eq_some_iff.mp h
                obtain ⟨more, hmore⟩ := rest_of_map h
                have hless := ih 5 more hmore
                omega
              · obtain ⟨escaped, -, h⟩ := Option.bind_eq_some_iff.mp h
                obtain ⟨more, hmore⟩ := rest_of_map h
                have hless := ih 1 more hmore
                omega
            · split at h
              · cases h
              · obtain ⟨more, hmore⟩ := rest_of_map h
                have hless := ih 0 more hmore
                omega

theorem scanString_consumes {s value rest : Str} (h : scanString s = some (value, rest)) :
    rest.length < s.length := by
  obtain ⟨units, hunits⟩ := rest_of_map h
  exact scanUnits_consumes s 0 units rest hunits

theorem length_scanFraction_le (s : Str) : (scanFraction s).2.length ≤ s.length := by
  unfold scanFraction
  split
  · rename_i rest
    split
    · exact le_rfl
    · have hdigits := List.length_dropWhile_le isDigit rest
      simp only [List.length_cons]
      omega
  · exact le_rfl

theorem length_scanSign_le (s : Str) : (scanSign s).2.length ≤ s.length := by
  unfold scanSign
  split <;> simp

theorem length_scanExponent_le (s : Str) : (scanExponent s).2.length ≤ s.length := by
  unfold scanExponent
  split
  · exact le_rfl
  · rename_i e rest
    have hsign := length_scanSign_le rest
    have hdigits := List.length_dropWhile_le isDigit (scanSign rest).2
    simp only
    split
    · simp only [List.length_cons]
      omega
    · exact le_rfl

theorem scanMagnitude_consumes {negative : Bool} {s rest : Str} {value : Json}
    (h : scanMagnitude negative s = some (value, rest)) : rest.length < s.length := by
  unfold scanMagnitude at h
  simp only at h
  generalize hdigits : (if s.head? = some '0' then ['0'] else s.takeWhile isDigit) = digits at h
  have hle : digits.length ≤ s.length := by
    rw [← hdigits]
    split
    · rename_i hhead
      cases s with
      | nil => cases hhead
      | cons c tail => simp
    · exact (List.takeWhile_prefix isDigit).length_le
  split at h
  · cases h
  · rename_i hne
    have hpos : 0 < digits.length := List.length_pos_iff.mpr hne
    have hfraction := length_scanFraction_le (s.drop digits.length)
    have hexponent := length_scanExponent_le (scanFraction (s.drop digits.length)).2
    rw [List.length_drop] at hfraction
    have hrest : (scanExponent (scanFraction (s.drop digits.length)).2).2 = rest := by
      split at h
      · exact (Prod.mk.inj (Option.some.inj h)).2
      · exact (Prod.mk.inj (Option.some.inj h)).2
    rw [← hrest]
    omega

theorem scanScalar_consumes {s rest : Str} {value : Json} (h : scanScalar s = some (value, rest)) :
    rest.length < s.length := by
  unfold scanScalar at h
  split at h
  · rename_i literal constant hfind
    obtain ⟨-, rfl⟩ : constant = value ∧ s.drop literal.length = rest := by simpa using h
    have hpos : 0 < literal.length := by
      have hall : ∀ pair ∈ constants, 0 < pair.1.length := by decide
      exact hall _ (List.mem_of_find?_eq_some hfind)
    have hle : literal.length ≤ s.length := by
      have hprefixed := List.find?_some hfind
      exact (List.isPrefixOf_iff_prefix.mp hprefixed).length_le
    rw [List.length_drop]
    omega
  · unfold scanNumber at h
    split at h
    · have hless := scanMagnitude_consumes h
      simp only [List.length_cons]
      omega
    · exact scanMagnitude_consumes h

-- A scanner that takes at least one character.
def Consumes {α : Type} (scan : Str → Option (α × Str)) : Prop :=
  ∀ s value rest, scan s = some (value, rest) → rest.length < s.length

section Step

variable {fuel : Nat}

theorem scanOnce_consumes (hpairs : Consumes (scanPairs fuel)) (hitems : Consumes (scanItems fuel)) :
    Consumes (scanOnce (fuel + 1)) := by
  intro s value rest h
  unfold scanOnce at h
  split at h
  · rename_i tail
    obtain ⟨text, htext⟩ := rest_of_map h
    have hless := scanString_consumes htext
    simp only [List.length_cons]
    omega
  · rename_i tail
    have hblanks := length_skipBlanks_le tail
    split at h
    · rename_i left hleft
      obtain ⟨-, rfl⟩ : _ ∧ left = rest := by simpa using h
      rw [hleft] at hblanks
      simp only [List.length_cons] at hblanks ⊢
      omega
    · obtain ⟨pairs, hscan⟩ := rest_of_map h
      have hless := hpairs _ _ _ hscan
      simp only [List.length_cons]
      omega
  · rename_i tail
    have hblanks := length_skipBlanks_le tail
    split at h
    · rename_i left hleft
      obtain ⟨-, rfl⟩ : _ ∧ left = rest := by simpa using h
      rw [hleft] at hblanks
      simp only [List.length_cons] at hblanks ⊢
      omega
    · obtain ⟨items, hscan⟩ := rest_of_map h
      have hless := hitems _ _ _ hscan
      simp only [List.length_cons]
      omega
  · exact scanScalar_consumes h

theorem scanPairs_consumes (honce : Consumes (scanOnce fuel)) (hpairs : Consumes (scanPairs fuel)) :
    Consumes (scanPairs (fuel + 1)) := by
  intro s pairs rest h
  unfold scanPairs at h
  split at h
  · rename_i tail
    obtain ⟨⟨key, afterKey⟩, hkey, h⟩ := Option.bind_eq_some_iff.mp h
    have hkeyLess := scanString_consumes hkey
    have hkeyBlanks := length_skipBlanks_le afterKey
    simp only at h
    split at h
    · rename_i afterColon hcolon
      have hcolonBlanks := length_skipBlanks_le afterColon
      obtain ⟨⟨value, afterValue⟩, hvalue, h⟩ := Option.bind_eq_some_iff.mp h
      have hvalueLess := honce _ _ _ hvalue
      have hvalueBlanks := length_skipBlanks_le afterValue
      rw [hcolon] at hkeyBlanks
      simp only [List.length_cons] at hkeyBlanks ⊢
      simp only at h
      split at h
      · rename_i left hleft
        obtain ⟨-, rfl⟩ : _ ∧ left = rest := by simpa using h
        rw [hleft, List.length_cons] at hvalueBlanks
        omega
      · rename_i more hmore
        have hmoreBlanks := length_skipBlanks_le more
        obtain ⟨others, hothers⟩ := rest_of_map h
        have hless := hpairs _ _ _ hothers
        rw [hmore, List.length_cons] at hvalueBlanks
        omega
      · cases h
    · cases h
  · cases h

theorem scanItems_consumes (honce : Consumes (scanOnce fuel)) (hitems : Consumes (scanItems fuel)) :
    Consumes (scanItems (fuel + 1)) := by
  intro s items rest h
  unfold scanItems at h
  obtain ⟨⟨value, afterValue⟩, hvalue, h⟩ := Option.bind_eq_some_iff.mp h
  have hvalueLess := honce _ _ _ hvalue
  have hvalueBlanks := length_skipBlanks_le afterValue
  simp only at h
  split at h
  · rename_i left hleft
    obtain ⟨-, rfl⟩ : _ ∧ left = rest := by simpa using h
    rw [hleft, List.length_cons] at hvalueBlanks
    omega
  · rename_i more hmore
    have hmoreBlanks := length_skipBlanks_le more
    obtain ⟨others, hothers⟩ := rest_of_map h
    have hless := hitems _ _ _ hothers
    rw [hmore, List.length_cons] at hvalueBlanks
    omega
  · cases h

end Step

theorem scan_consumes (fuel : Nat) :
    Consumes (scanOnce fuel) ∧ Consumes (scanPairs fuel) ∧ Consumes (scanItems fuel) := by
  induction fuel with
  | zero =>
      refine ⟨?_, ?_, ?_⟩
      · intro s value rest h
        cases h
      · intro s pairs rest h
        cases h
      · intro s items rest h
        cases h
  | succ fuel ih =>
      obtain ⟨honce, hpairs, hitems⟩ := ih
      exact ⟨scanOnce_consumes hpairs hitems, scanPairs_consumes honce hpairs,
        scanItems_consumes honce hitems⟩

-- One more unit of fuel changes nothing on a text whose need is met.
def Enough {α : Type} (scan : Nat → Str → Option (α × Str)) (fuel : Nat) (need : Str → Nat) : Prop :=
  ∀ s, need s < fuel → scan (fuel + 1) s = scan fuel s

def need (s : Str) : Nat := 2 * s.length

section Step

variable {fuel : Nat}

theorem scanOnce_enough (hpairs : Enough scanPairs fuel need)
    (hitems : Enough scanItems fuel fun s => need s + 1) : Enough scanOnce (fuel + 1) need := by
  intro s hs
  unfold scanOnce
  split
  · rfl
  · rename_i tail
    have hblanks := length_skipBlanks_le tail
    simp only [need, List.length_cons] at hs
    split
    · rfl
    · rw [hpairs (skipBlanks tail) (by simp only [need]; omega)]
  · rename_i tail
    have hblanks := length_skipBlanks_le tail
    simp only [need, List.length_cons] at hs
    split
    · rfl
    · rw [hitems (skipBlanks tail) (by simp only [need]; omega)]
  · rfl

theorem scanPairs_enough (honce : Enough scanOnce fuel need) (hpairs : Enough scanPairs fuel need) :
    Enough scanPairs (fuel + 1) need := by
  intro s hs
  unfold scanPairs
  split
  · rename_i tail
    simp only [need, List.length_cons] at hs
    apply Option.bind_congr
    intro ⟨key, afterKey⟩ hkey
    have hkeyLess := scanString_consumes hkey
    have hkeyBlanks := length_skipBlanks_le afterKey
    simp only
    split
    · rename_i afterColon hcolon
      have hcolonBlanks := length_skipBlanks_le afterColon
      rw [hcolon, List.length_cons] at hkeyBlanks
      rw [honce (skipBlanks afterColon) (by simp only [need]; omega)]
      apply Option.bind_congr
      intro ⟨value, afterValue⟩ hvalue
      have hvalueLess := (scan_consumes fuel).1 _ _ _ hvalue
      have hvalueBlanks := length_skipBlanks_le afterValue
      simp only
      split
      · rfl
      · rename_i more hmore
        have hmoreBlanks := length_skipBlanks_le more
        rw [hmore, List.length_cons] at hvalueBlanks
        rw [hpairs (skipBlanks more) (by simp only [need]; omega)]
      · rfl
    · rfl
  · rfl

theorem scanItems_enough (honce : Enough scanOnce fuel need)
    (hitems : Enough scanItems fuel fun s => need s + 1) :
    Enough scanItems (fuel + 1) fun s => need s + 1 := by
  intro s hs
  simp only [need] at hs
  rw [scanItems, scanItems, honce s (by simp only [need]; omega)]
  apply Option.bind_congr
  intro ⟨value, afterValue⟩ hvalue
  have hvalueLess := (scan_consumes fuel).1 _ _ _ hvalue
  have hvalueBlanks := length_skipBlanks_le afterValue
  simp only
  split
  · rfl
  · rename_i more hmore
    have hmoreBlanks := length_skipBlanks_le more
    rw [hmore, List.length_cons] at hvalueBlanks
    rw [hitems (skipBlanks more) (by simp only [need]; omega)]
  · rfl

end Step

theorem scan_enough (fuel : Nat) :
    Enough scanOnce fuel need ∧ Enough scanPairs fuel need ∧
      Enough scanItems fuel fun s => need s + 1 := by
  induction fuel with
  | zero =>
      refine ⟨?_, ?_, ?_⟩
      · intro s hs
        omega
      · intro s hs
        omega
      · intro s hs
        omega
  | succ fuel ih =>
      obtain ⟨honce, hpairs, hitems⟩ := ih
      exact ⟨scanOnce_enough hpairs hitems, scanPairs_enough honce hpairs, scanItems_enough honce hitems⟩

theorem scanOnce_fuel (s : Str) (fuel : Nat) (hfuel : need s < fuel) :
    scanOnce fuel s = scanOnce (need s + 1) s := by
  induction fuel, hfuel using Nat.le_induction with
  | base => rfl
  | succ fuel hle ih => rw [(scan_enough fuel).1 s hle, ih]

-- json.loads never fails for want of fuel.
theorem loads_fuel (s : Str) (fuel : Nat) (hfuel : need s < fuel) :
    scanOnce fuel (skipBlanks s) = scanOnce (2 * s.length + 1) (skipBlanks s) := by
  have hblanks := length_skipBlanks_le s
  simp only [need] at hfuel
  have hgiven := scanOnce_fuel (skipBlanks s) fuel (by simp only [need]; omega)
  have hloads := scanOnce_fuel (skipBlanks s) (2 * s.length + 1) (by simp only [need]; omega)
  rw [hgiven, hloads]

end MesosPoc.Json
