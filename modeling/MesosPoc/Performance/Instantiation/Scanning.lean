import MesosPoc.Json.Theorems
import MesosPoc.Performance.Instantiation.Filling

namespace MesosPoc.Performance

open Json

section Scanning

-- What may stand behind a value.
def Follows (rest : Str) : Prop :=
  ∀ c, rest.head? = some c → Json.isBlank c = true ∨ c = ',' ∨ c = ']' ∨ c = '}'

theorem Follows.ends {rest : Str} (h : Follows rest) : Ends rest := by
  intro c hc
  rcases h c hc with hblank | rfl | rfl | rfl
  · simp only [Json.isBlank, decide_eq_true_eq] at hblank
    rcases hblank with rfl | rfl | rfl | rfl <;> decide
  · decide
  · decide
  · decide

theorem Follows.holeName {rest : Str} (h : Follows rest) : holeName rest = none := by
  cases rest with
  | nil => rfl
  | cons c rest =>
      apply holeName_ne
      rcases h c rfl with hblank | rfl | rfl | rfl
      · exact isBlank_ne hblank rfl
      · decide
      · decide
      · decide

theorem follows_of_skipBlanks {s : Str}
    (h : ∀ c, (skipBlanks s).head? = some c → c = ',' ∨ c = ']' ∨ c = '}') : Follows s := by
  intro c hc
  cases s with
  | nil => cases hc
  | cons a s =>
      obtain rfl : a = c := Option.some.inj hc
      by_cases hblank : Json.isBlank a = true
      · exact Or.inl hblank
      · right
        apply h a
        rw [skipBlanks, List.dropWhile_cons_of_neg hblank]
        rfl

-- A text whose scanner meets a quote, a bracket or nothing first.
theorem holeName_object {rest : Str} {c : Char} (h : (skipBlanks rest).head? = some c) (hc : isNameChar c = false) :
    holeName ('{' :: rest) = none := by
  apply holeName_brace
  intro a ha
  cases rest with
  | nil => cases ha
  | cons b rest =>
      obtain rfl : b = a := Option.some.inj ha
      by_cases hblank : Json.isBlank b = true
      · simp only [Json.isBlank, decide_eq_true_eq] at hblank
        rcases hblank with rfl | rfl | rfl | rfl <;> rfl
      · rw [skipBlanks, List.dropWhile_cons_of_neg hblank] at h
        obtain rfl : b = c := Option.some.inj h
        exact hc

theorem head_of_scanPairs {fuel : Nat} {s rest : Str} {pairs : List (Str × Json)}
    (h : scanPairs fuel s = some (pairs, rest)) : s.head? = some '"' := by
  cases fuel with
  | zero => cases h
  | succ fuel =>
      unfold scanPairs at h
      split at h
      · rfl
      · cases h

-- No placeholder stands where a value does.
theorem holeName_of_scanOnce {fuel : Nat} {s rest : Str} {value : Json} (h : scanOnce fuel s = some (value, rest)) :
    holeName s = none := by
  cases s with
  | nil => rfl
  | cons c s =>
      by_cases hc : c = '{'
      · subst c
        cases fuel with
        | zero => cases h
        | succ fuel =>
            unfold scanOnce at h
            simp only at h
            split at h
            · rename_i left hleft
              exact holeName_object (by rw [hleft]; rfl) rfl
            · obtain ⟨pairs, hpairs⟩ := rest_of_map h
              exact holeName_object (head_of_scanPairs hpairs) rfl
      · exact holeName_ne s hc

theorem holeName_of_scanItems {fuel : Nat} {s rest : Str} {items : List Json}
    (h : scanItems fuel s = some (items, rest)) : holeName s = none := by
  cases fuel with
  | zero => cases h
  | succ fuel =>
      rw [scanItems] at h
      obtain ⟨⟨value, left⟩, hvalue, -⟩ := Option.bind_eq_some_iff.mp h
      exact holeName_of_scanOnce hvalue

-- The branches of the scanner, by the first character.

theorem scanOnce_object {fuel : Nat} {rest : Str} (h : (skipBlanks rest).head? ≠ some '}') :
    scanOnce (fuel + 1) ('{' :: rest) =
      (scanPairs fuel (skipBlanks rest)).map fun (pairs, rest) => (.obj pairs, rest) := by
  rw [scanOnce]
  split
  · rename_i left hleft
    exact absurd (by rw [hleft]; rfl) h
  · rfl

theorem scanOnce_array {fuel : Nat} {rest : Str} (h : (skipBlanks rest).head? ≠ some ']') :
    scanOnce (fuel + 1) ('[' :: rest) =
      (scanItems fuel (skipBlanks rest)).map fun (items, rest) => (.arr items, rest) := by
  rw [scanOnce]
  split
  · rename_i left hleft
    exact absurd (by rw [hleft]; rfl) h
  · rfl

theorem scanOnce_scalar {fuel : Nat} {s : Str} (hquote : s.head? ≠ some '"') (hopen : s.head? ≠ some '{')
    (harray : s.head? ≠ some '[') : scanOnce (fuel + 1) s = scanScalar s := by
  unfold scanOnce
  split
  · exact absurd rfl hquote
  · exact absurd rfl hopen
  · exact absurd rfl harray
  · rfl

variable {values : Str → Str}

-- A scanner for which it is the same to fill a text or what is decoded from it.
def Fills {α : Type} (values : Str → Str) (scan : Str → Option (α × Str)) (filled : α → α) : Prop :=
  ∀ s value rest, '\\' ∉ s → Follows rest → scan s = some (value, rest) →
    scan (fill values s) = some (filled value, fill values rest) ∧ '\\' ∉ rest

theorem notMem_skipBlanks {c : Char} {s : Str} (h : c ∉ s) : c ∉ skipBlanks s :=
  fun hm => h ((List.dropWhile_suffix Json.isBlank).subset hm)

theorem scanString_fill (hq : Quotable values) (s v rest : Str) (hs : '\\' ∉ s)
    (h : scanString s = some (v, rest)) :
    scanString (fill values s) = some (fill values v, fill values rest) ∧ '\\' ∉ rest := by
  obtain ⟨rfl, hv⟩ := scanString_inv hs h
  rw [fill_parted v rest '"' rfl (by decide) (by decide)]
  refine ⟨scanString_literal _ _ (fill_forall v hv hq.unescaped), ?_⟩
  intro hm
  exact hs (List.mem_append_right _ (List.mem_cons_of_mem _ hm))

theorem fillJson_scalar {j : Json} (h : IsScalar j) : fillJson values j = j := by
  rcases h with rfl | ⟨value, rfl⟩ | ⟨value, rfl⟩ | ⟨literal, rfl⟩ <;> rfl

theorem fill_scalar (token rest : Str) (h : ∀ c ∈ token, isScalarChar c = true) :
    fill values (token ++ rest) = token ++ fill values rest := by
  induction token with
  | nil => rfl
  | cons c token ih =>
      obtain ⟨hc, htoken⟩ := List.forall_mem_cons.mp h
      have hne : c ≠ '{' := by
        rintro rfl
        cases hc
      rw [List.cons_append, fill_ne _ hne, ih htoken, List.cons_append]

theorem scanScalar_fill : Fills values scanScalar (fillJson values) := by
  intro s value rest hs hrest h
  obtain ⟨token, rfl, htoken, hscan⟩ := scanScalar_split h hrest.ends
  have hends : Ends (fill values rest) := by
    intro c hc
    rw [head_fill hrest.holeName] at hc
    exact hrest.ends c hc
  rw [fill_scalar token rest htoken, fillJson_scalar (scanScalar_spec h).2, hscan _ hends]
  exact ⟨rfl, fun hm => hs (List.mem_append_right _ hm)⟩

section Step

variable {fuel : Nat}

theorem scanOnce_fill (hq : Quotable values) (hpairs : Fills values (scanPairs fuel) (fillPairs values))
    (hitems : Fills values (scanItems fuel) (fillItems values)) :
    Fills values (scanOnce (fuel + 1)) (fillJson values) := by
  intro s value rest hs hrest h
  have hhole := holeName_of_scanOnce h
  unfold scanOnce at h
  split at h
  · rename_i tail
    rw [List.mem_cons, not_or] at hs
    obtain ⟨⟨text, left⟩, htext, heq⟩ := Option.map_eq_some_iff.mp h
    obtain ⟨rfl, rfl⟩ := Prod.mk.inj heq
    obtain ⟨hscan, hleft⟩ := scanString_fill hq tail text left hs.2 htext
    refine ⟨?_, hleft⟩
    rw [fill_cons values _ tail hhole, scanOnce, hscan]
    rfl
  · rename_i tail
    rw [List.mem_cons, not_or] at hs
    have htail := notMem_skipBlanks hs.2
    rw [fill_cons values _ tail hhole]
    split at h
    · rename_i left hleft
      obtain ⟨rfl, rfl⟩ := Prod.mk.inj (Option.some.inj h)
      have hskip := skipBlanks_fill values tail (by rw [hleft]; rfl)
      rw [hleft] at htail
      rw [hleft, fill_ne left (by decide)] at hskip
      refine ⟨?_, fun hm => htail (List.mem_cons_of_mem _ hm)⟩
      rw [scanOnce, hskip]
      rfl
    · obtain ⟨⟨pairs, left⟩, hscan, heq⟩ := Option.map_eq_some_iff.mp h
      obtain ⟨rfl, rfl⟩ := Prod.mk.inj heq
      have hhead := head_of_scanPairs hscan
      have hnone : holeName (skipBlanks tail) = none := by
        obtain ⟨more, hmore⟩ := List.head?_eq_some_iff.mp hhead
        rw [hmore]
        rfl
      have hskip := skipBlanks_fill values tail hnone
      obtain ⟨hfilled, hleft⟩ := hpairs _ _ _ htail hrest hscan
      refine ⟨?_, hleft⟩
      rw [scanOnce_object (by rw [hskip, head_fill hnone, hhead]; decide), hskip, hfilled]
      rfl
  · rename_i tail
    rw [List.mem_cons, not_or] at hs
    have htail := notMem_skipBlanks hs.2
    rw [fill_cons values _ tail hhole]
    split at h
    · rename_i left hleft
      obtain ⟨rfl, rfl⟩ := Prod.mk.inj (Option.some.inj h)
      have hskip := skipBlanks_fill values tail (by rw [hleft]; rfl)
      rw [hleft] at htail
      rw [hleft, fill_ne left (by decide)] at hskip
      refine ⟨?_, fun hm => htail (List.mem_cons_of_mem _ hm)⟩
      rw [scanOnce, hskip]
      rfl
    · rename_i hbracket
      obtain ⟨⟨items, left⟩, hscan, heq⟩ := Option.map_eq_some_iff.mp h
      obtain ⟨rfl, rfl⟩ := Prod.mk.inj heq
      have hnone := holeName_of_scanItems hscan
      have hskip := skipBlanks_fill values tail hnone
      obtain ⟨hfilled, hleft⟩ := hitems _ _ _ htail hrest hscan
      have hhead : (skipBlanks (fill values tail)).head? ≠ some ']' := by
        rw [hskip, head_fill hnone]
        intro hclose
        obtain ⟨more, hmore⟩ := List.head?_eq_some_iff.mp hclose
        exact hbracket more hmore
      refine ⟨?_, hleft⟩
      rw [scanOnce_array hhead, hskip, hfilled]
      rfl
  · rename_i hquote hopen harray
    have hhead : ∀ c, (∀ tail, s = c :: tail → False) → (fill values s).head? ≠ some c := by
      intro c hne hc
      rw [head_fill hhole] at hc
      obtain ⟨more, hmore⟩ := List.head?_eq_some_iff.mp hc
      exact hne more hmore
    rw [scanOnce_scalar (hhead _ hquote) (hhead _ hopen) (hhead _ harray)]
    exact scanScalar_fill s value rest hs hrest h

-- A mark between the parts of an object or an array is in no placeholder.
theorem skipBlanks_mark {s left : Str} {mark : Char} (h : skipBlanks s = mark :: left) (hmark : mark ≠ '{') :
    skipBlanks (fill values s) = mark :: fill values left := by
  rw [skipBlanks_fill values s (by rw [h]; exact holeName_ne left hmark), h, fill_ne left hmark]

theorem scanPairs_fill (hq : Quotable values) (honce : Fills values (scanOnce fuel) (fillJson values))
    (hpairs : Fills values (scanPairs fuel) (fillPairs values)) :
    Fills values (scanPairs (fuel + 1)) (fillPairs values) := by
  intro s result rest hs hrest h
  unfold scanPairs at h
  split at h
  · rename_i tail
    rw [List.mem_cons, not_or] at hs
    obtain ⟨⟨key, afterKey⟩, hkey, h⟩ := Option.bind_eq_some_iff.mp h
    obtain ⟨hkeyFilled, hafterKey⟩ := scanString_fill hq tail key afterKey hs.2 hkey
    simp only at h
    split at h
    · rename_i afterColon hcolon
      have hafterColon : '\\' ∉ afterColon := by
        have hskipped := notMem_skipBlanks hafterKey
        rw [hcolon] at hskipped
        exact fun hm => hskipped (List.mem_cons_of_mem _ hm)
      obtain ⟨⟨value, afterValue⟩, hvalue, h⟩ := Option.bind_eq_some_iff.mp h
      have hfollows : Follows afterValue := by
        apply follows_of_skipBlanks
        intro c hc
        simp only at h
        split at h
        · rename_i hclose
          rw [hclose] at hc
          exact Or.inr (Or.inr (Option.some.inj hc).symm)
        · rename_i hcomma
          rw [hcomma] at hc
          exact Or.inl (Option.some.inj hc).symm
        · cases h
      obtain ⟨hvalueFilled, hafterValue⟩ := honce _ _ _ (notMem_skipBlanks hafterColon) hfollows hvalue
      have hvalueSkip := skipBlanks_fill values afterColon (holeName_of_scanOnce hvalue)
      have hskipped := notMem_skipBlanks hafterValue
      rw [fill_ne tail (by decide), scanPairs, hkeyFilled]
      simp only [Option.bind_some, skipBlanks_mark hcolon (by decide), hvalueSkip, hvalueFilled]
      simp only at h
      split at h
      · rename_i left hclose
        obtain ⟨rfl, rfl⟩ := Prod.mk.inj (Option.some.inj h)
        rw [hclose] at hskipped
        refine ⟨?_, fun hm => hskipped (List.mem_cons_of_mem _ hm)⟩
        rw [skipBlanks_mark hclose (by decide)]
        rfl
      · rename_i more hcomma
        obtain ⟨⟨pairs, left⟩, hmore, heq⟩ := Option.map_eq_some_iff.mp h
        obtain ⟨rfl, rfl⟩ := Prod.mk.inj heq
        rw [hcomma] at hskipped
        have hmoreSlash : '\\' ∉ more := fun hm => hskipped (List.mem_cons_of_mem _ hm)
        have hhead := head_of_scanPairs hmore
        have hnone : holeName (skipBlanks more) = none := by
          obtain ⟨next, hnext⟩ := List.head?_eq_some_iff.mp hhead
          rw [hnext]
          rfl
        obtain ⟨hmoreFilled, hleft⟩ := hpairs _ _ _ (notMem_skipBlanks hmoreSlash) hrest hmore
        refine ⟨?_, hleft⟩
        rw [skipBlanks_mark hcomma (by decide)]
        simp only [skipBlanks_fill values more hnone, hmoreFilled]
        rfl
      · cases h
    · cases h
  · cases h

theorem scanItems_fill (honce : Fills values (scanOnce fuel) (fillJson values))
    (hitems : Fills values (scanItems fuel) (fillItems values)) :
    Fills values (scanItems (fuel + 1)) (fillItems values) := by
  intro s result rest hs hrest h
  rw [scanItems] at h
  obtain ⟨⟨value, afterValue⟩, hvalue, h⟩ := Option.bind_eq_some_iff.mp h
  simp only at h
  have hfollows : Follows afterValue := by
    apply follows_of_skipBlanks
    intro c hc
    split at h
    · rename_i hclose
      rw [hclose] at hc
      exact Or.inr (Or.inl (Option.some.inj hc).symm)
    · rename_i hcomma
      rw [hcomma] at hc
      exact Or.inl (Option.some.inj hc).symm
    · cases h
  obtain ⟨hvalueFilled, hafterValue⟩ := honce _ _ _ hs hfollows hvalue
  have hskipped := notMem_skipBlanks hafterValue
  rw [scanItems, hvalueFilled]
  simp only [Option.bind_some]
  split at h
  · rename_i left hclose
    obtain ⟨rfl, rfl⟩ := Prod.mk.inj (Option.some.inj h)
    rw [hclose] at hskipped
    refine ⟨?_, fun hm => hskipped (List.mem_cons_of_mem _ hm)⟩
    rw [skipBlanks_mark hclose (by decide)]
    rfl
  · rename_i more hcomma
    obtain ⟨⟨items, left⟩, hmore, heq⟩ := Option.map_eq_some_iff.mp h
    obtain ⟨rfl, rfl⟩ := Prod.mk.inj heq
    rw [hcomma] at hskipped
    have hmoreSlash : '\\' ∉ more := fun hm => hskipped (List.mem_cons_of_mem _ hm)
    obtain ⟨hmoreFilled, hleft⟩ := hitems _ _ _ (notMem_skipBlanks hmoreSlash) hrest hmore
    refine ⟨?_, hleft⟩
    rw [skipBlanks_mark hcomma (by decide)]
    simp only [skipBlanks_fill values more (holeName_of_scanItems hmore), hmoreFilled]
    rfl
  · cases h

end Step

theorem scan_fill (hq : Quotable values) (fuel : Nat) :
    Fills values (scanOnce fuel) (fillJson values) ∧ Fills values (scanPairs fuel) (fillPairs values) ∧
      Fills values (scanItems fuel) (fillItems values) := by
  induction fuel with
  | zero =>
      refine ⟨?_, ?_, ?_⟩
      · intro s value rest _ _ h
        cases h
      · intro s pairs rest _ _ h
        cases h
      · intro s items rest _ _ h
        cases h
  | succ fuel ih =>
      obtain ⟨honce, hpairs, hitems⟩ := ih
      exact ⟨scanOnce_fill hq hpairs hitems, scanPairs_fill hq honce hpairs, scanItems_fill honce hitems⟩

-- A template that decodes, and its placeholders with it: it is the same to fill the text
-- and decode it, or to decode the template and fill its strings.
theorem loads_fill (hq : Quotable values) (text : Str) (j : Json) (hslash : '\\' ∉ text)
    (h : loads text = .ok j) : loads (fill values text) = .ok (fillJson values j) := by
  have hrun := loads_fuel text (need text + need (fill values text) + 1) (by omega)
  have hrunFilled := loads_fuel (fill values text) (need text + need (fill values text) + 1) (by omega)
  unfold loads at h ⊢
  split at h
  · rename_i hvalid
    rw [if_pos (utf8Valid_fill hq text hvalid), ← hrunFilled]
    rw [← hrun] at h
    split at h
    · rename_i value rest hscan
      split at h
      · rename_i hblank
        obtain rfl := Except.ok.inj h
        have hfollows : Follows rest := by
          apply follows_of_skipBlanks
          intro c hc
          rw [hblank] at hc
          cases hc
        have hskip := skipBlanks_fill values text (holeName_of_scanOnce hscan)
        have hscanFilled := ((scan_fill hq _).1 _ _ _ (notMem_skipBlanks hslash) hfollows hscan).1
        have hblankFilled : skipBlanks (fill values rest) = [] := by
          rw [skipBlanks_fill values rest (by rw [hblank]; rfl), hblank]
          rfl
        rw [hskip, hscanFilled]
        simp only [hblankFilled, if_true]
      · cases h
    · cases h
  · cases h

end Scanning

end MesosPoc.Performance
