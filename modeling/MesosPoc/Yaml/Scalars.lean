import MesosPoc.Yaml

namespace MesosPoc.Yaml

section Quotes

theorem Scan.insert_eq_closed {c : Char} {scan : Scan} {content rest : Str}
    (h : scan.insert c = .closed content rest) : ∃ tail, content = c :: tail ∧ scan = .closed tail rest := by
  cases scan with
  | closed tail rest' =>
      cases h
      exact ⟨tail, rfl, rfl⟩
  | goesOn => cases h
  | error => cases h

theorem Scan.push_eq_closed {c : Char} {scan : Scan} {content rest : Str}
    (h : scan.push c = .closed content rest) : ∃ tail, content = c :: tail ∧ scan = .closed tail rest := by
  apply Scan.insert_eq_closed
  rw [← h]
  unfold Scan.push at h ⊢
  split at h
  · split at h <;> cases h
  · rfl

-- The text up to a closing quote is the content, or is longer.
theorem scanSingle_closed (s : Str) {content rest : Str} :
    (scanSingle false s = .closed content rest →
      s = content ++ '\'' :: rest ∧ '\'' ∉ content ∨ content.length + 1 + rest.length < s.length) ∧
    (scanSingle true s = .closed content rest →
      content = [] ∧ rest = s ∨ content.length + rest.length < s.length) := by
  induction s generalizing content with
  | nil =>
      refine ⟨nofun, ?_⟩
      intro h
      cases h
      exact .inl ⟨rfl, rfl⟩
  | cons c s ih =>
      refine ⟨?_, ?_⟩
      · intro h
        rw [scanSingle] at h
        by_cases hc : c = '\''
        · rw [if_pos hc] at h
          rcases ih.2 h with ⟨rfl, rfl⟩ | hlength
          · exact .inl ⟨by rw [hc, List.nil_append], List.not_mem_nil⟩
          · right
            rw [List.length_cons]
            omega
        · rw [if_neg hc] at h
          obtain ⟨tail, rfl, hscan⟩ := Scan.push_eq_closed h
          rcases ih.1 hscan with ⟨hs, htail⟩ | hlength
          · refine .inl ⟨by rw [hs, List.cons_append], ?_⟩
            rw [List.mem_cons]
            rintro (hquote | hmem)
            · exact hc hquote.symm
            · exact htail hmem
          · right
            rw [List.length_cons, List.length_cons]
            omega
      · intro h
        rw [scanSingle] at h
        by_cases hc : c = '\''
        · rw [if_pos hc] at h
          obtain ⟨tail, rfl, hscan⟩ := Scan.insert_eq_closed h
          right
          rw [List.length_cons, List.length_cons]
          rcases ih.1 hscan with ⟨hs, -⟩ | hlength
          · rw [hs, List.length_append, List.length_cons]
            omega
          · omega
        · rw [if_neg hc] at h
          cases h
          exact .inl ⟨rfl, rfl⟩

theorem scanSingle_of_notMem {v : Str} (h : '\'' ∉ v) : scanSingle false (v ++ ['\'']) = .closed v [] := by
  induction v with
  | nil => rfl
  | cons c v ih =>
      rw [List.mem_cons] at h
      have hc : c ≠ '\'' := fun hquote => h (.inl hquote.symm)
      rw [List.cons_append, scanSingle, if_neg hc, ih fun hmem => h (.inr hmem)]
      rfl

-- A quote that is written twice is one of the content.
theorem scanSingle_doubled (v : Str) :
    scanSingle false ((v.flatMap fun c => if c = '\'' then ['\'', '\''] else [c]) ++ ['\'']) = .closed v [] := by
  induction v with
  | nil => rfl
  | cons c v ih =>
      rw [List.flatMap_cons]
      by_cases hc : c = '\''
      · rw [if_pos hc, hc, List.append_assoc, List.cons_append, List.cons_append, List.nil_append, scanSingle,
          if_pos rfl, scanSingle, if_pos rfl, ih]
        rfl
      · rw [if_neg hc, List.append_assoc, List.singleton_append, scanSingle, if_neg hc, ih]
        rfl

def notSpecial (c : Char) : Bool :=
  c ≠ '"' ∧ c ≠ '\\'

-- Where an escape is read, the text is longer than the content.
theorem scanDouble_closed (s : Str) (mode : Mode) {content rest : Str}
    (h : scanDouble mode s = .closed content rest) :
    match mode with
    | .text => s = content ++ '"' :: rest ∧ content.all notSpecial = true ∨
        content.length + 1 + rest.length < s.length
    | _ => content.length + rest.length < s.length := by
  induction s generalizing mode content with
  | nil => cases mode <;> cases h
  | cons c s ih =>
      have hshort : ∀ {tail : Str}, scanDouble .text s = .closed tail rest →
          tail.length + 1 + rest.length ≤ s.length := by
        intro tail hscan
        rcases ih .text hscan with ⟨hs, -⟩ | hlength
        · rw [hs, List.length_append, List.length_cons]
          omega
        · omega
      cases mode with
      | text =>
          simp only [scanDouble] at h
          by_cases hquote : c = '"'
          · rw [if_pos hquote] at h
            cases h
            exact .inl ⟨by rw [hquote, List.nil_append], rfl⟩
          · rw [if_neg hquote] at h
            by_cases hslash : c = '\\'
            · rw [if_pos hslash] at h
              right
              have hlength := ih .escape h
              simp only at hlength
              rw [List.length_cons]
              omega
            · rw [if_neg hslash] at h
              obtain ⟨tail, rfl, hscan⟩ := Scan.push_eq_closed h
              rcases ih .text hscan with ⟨hs, htail⟩ | hlength
              · refine .inl ⟨by rw [hs, List.cons_append], ?_⟩
                rw [List.all_cons, htail]
                simp [notSpecial, hquote, hslash]
              · right
                rw [List.length_cons, List.length_cons]
                omega
      | escape =>
          simp only [scanDouble] at h
          rw [List.length_cons]
          split at h
          · have hlength := ih _ h
            simp only at hlength
            omega
          · split at h
            · obtain ⟨tail, rfl, hscan⟩ := Scan.insert_eq_closed h
              have hlength := hshort hscan
              rw [List.length_cons]
              omega
            · cases h
      | code digits value =>
          simp only [scanDouble] at h
          rw [List.length_cons]
          split at h
          · split at h
            · obtain ⟨tail, rfl, hscan⟩ := Scan.insert_eq_closed h
              have hlength := hshort hscan
              rw [List.length_cons]
              omega
            · have hlength := ih _ h
              simp only at hlength
              omega
          · cases h

theorem scanDouble_of_all {v : Str} (h : v.all notSpecial = true) (rest : Str) :
    scanDouble .text (v ++ '"' :: rest) = .closed v rest := by
  induction v with
  | nil => rfl
  | cons c v ih =>
      rw [List.all_cons, Bool.and_eq_true] at h
      obtain ⟨hquote, hslash⟩ : c ≠ '"' ∧ c ≠ '\\' := by simpa [notSpecial] using h.1
      simp only [List.cons_append, scanDouble]
      rw [if_neg hquote, if_neg hslash, ih h.2]
      rfl

-- Without a closing quote the scalar goes on.
theorem scanDouble_open {v : Str} (h : v.all notSpecial = true) :
    ∃ content, scanDouble .text v = .goesOn content false := by
  induction v with
  | nil => exact ⟨[], rfl⟩
  | cons c v ih =>
      rw [List.all_cons, Bool.and_eq_true] at h
      obtain ⟨hquote, hslash⟩ : c ≠ '"' ∧ c ≠ '\\' := by simpa [notSpecial] using h.1
      obtain ⟨content, hscan⟩ := ih h.2
      simp only [scanDouble]
      rw [if_neg hquote, if_neg hslash, hscan, Scan.push.eq_def]
      split
      · split
        · exact ⟨_, rfl⟩
        · exact ⟨_, rfl⟩
      · exact ⟨_, rfl⟩

end Quotes

section Plain

-- What a plain scalar on one line may look like.
structure IsPlain (v : Str) : Prop where
  starts : v ≠ [] → startsPlain v = true
  comment : ∀ w, isWhite w = true → ¬[w, '#'] <:+: v
  key : ∀ w, isWhite w = true → ¬[':', w] <:+: v
  colon : v.getLast? ≠ some ':'
  trimmed : ∀ c ∈ v.getLast?, isWhite c = false

theorem scanPlain_append (before : Char) (s : Str) : (scanPlain before s).1 ++ (scanPlain before s).2 = s := by
  induction s generalizing before with
  | nil => rfl
  | cons c s ih =>
      rw [scanPlain]
      split
      · rfl
      · rw [List.cons_append, ih]

theorem startsPlain_head {c : Char} {s : Str} (h : startsPlain (c :: s) = true) :
    isWhite c = false ∧ c ≠ '#' ∧ c ≠ '\'' ∧ c ≠ '"' := by
  simp only [startsPlain] at h
  split at h
  next hsign => rcases hsign with rfl | rfl | rfl <;> decide
  next =>
    rw [Bool.and_eq_true, Bool.not_eq_true', Bool.not_eq_true'] at h
    refine ⟨h.1, ?_, ?_, ?_⟩
    · rintro rfl
      exact absurd h.2 (by decide)
    · rintro rfl
      exact absurd h.2 (by decide)
    · rintro rfl
      exact absurd h.2 (by decide)

theorem endsPlain_eq_false_iff (before c : Char) (s : Str) :
    endsPlain before c s = false ↔
      (∀ w, isWhite w = true → ¬[w, '#'] <+: before :: c :: s) ∧
        (∀ w, isWhite w = true → ¬[':', w] <+: c :: s) ∧ (s = [] → c ≠ ':') := by
  unfold endsPlain
  cases s with
  | nil =>
      simp [List.cons_prefix_cons]
      grind
  | cons next s =>
      simp [List.cons_prefix_cons]
      grind

-- Nothing ends the scalar before its line does.
theorem scanPlain_all_iff (before : Char) (s : Str) :
    scanPlain before s = (s, []) ↔
      (∀ w, isWhite w = true → ¬[w, '#'] <:+: before :: s) ∧ (∀ w, isWhite w = true → ¬[':', w] <:+: s) ∧
        s.getLast? ≠ some ':' := by
  induction s generalizing before with
  | nil => simp [scanPlain, List.infix_cons_iff]
  | cons c s ih =>
      have hends := endsPlain_eq_false_iff before c s
      have hlast : (c :: s).getLast? ≠ some ':' ↔ (s = [] → c ≠ ':') ∧ s.getLast? ≠ some ':' := by
        cases s with
        | nil => simp
        | cons next s => simp
      have hscan : scanPlain before (c :: s) = (c :: s, []) ↔
          endsPlain before c s = false ∧ scanPlain c s = (s, []) := by
        rw [scanPlain]
        cases endsPlain before c s with
        | true => simp
        | false => simp [Prod.ext_iff]
      rw [hscan, hends, ih c, hlast]
      simp only [List.infix_cons_iff, not_or]
      constructor
      · rintro ⟨⟨hcomment, hkey, hcolon⟩, hcomments, hkeys, hcolons⟩
        exact ⟨fun w hw => ⟨hcomment w hw, hcomments w hw⟩, fun w hw => ⟨hkey w hw, hkeys w hw⟩, hcolon, hcolons⟩
      · rintro ⟨hcomment, hkey, hcolon, hcolons⟩
        exact ⟨⟨fun w hw => (hcomment w hw).1, fun w hw => (hkey w hw).1, hcolon⟩,
          fun w hw => (hcomment w hw).2, fun w hw => (hkey w hw).2, hcolons⟩

-- A scalar that fills what stands after its key.
theorem isPlain_iff {c : Char} {s : Str} :
    IsPlain (c :: s) ↔ startsPlain (c :: s) = true ∧ scanPlain ' ' (c :: s) = (c :: s, []) ∧
      (c :: s).rdropWhile isWhite = c :: s := by
  rw [scanPlain_all_iff, List.rdropWhile_eq_self_iff]
  have hblank : startsPlain (c :: s) = true → ∀ w, ([w, '#'] <:+: ' ' :: c :: s ↔ [w, '#'] <:+: c :: s) := by
    intro hstarts w
    rw [List.infix_cons_iff, or_iff_right]
    intro h
    exact (startsPlain_head hstarts).2.1 (List.cons_prefix_cons.mp (List.cons_prefix_cons.mp h).2).1.symm
  constructor
  · intro h
    have hstarts := h.starts (List.cons_ne_nil _ _)
    refine ⟨hstarts, ⟨?_, h.key, h.colon⟩, ?_⟩
    · intro w hw
      rw [hblank hstarts w]
      exact h.comment w hw
    · intro hne
      rw [h.trimmed _ (List.getLast?_eq_some_getLast hne)]
      exact Bool.false_ne_true
  · rintro ⟨hstarts, ⟨hcomment, hkey, hcolon⟩, htrimmed⟩
    refine ⟨fun _ => hstarts, ?_, hkey, hcolon, ?_⟩
    · intro w hw
      rw [← hblank hstarts w]
      exact hcomment w hw
    · intro d hd
      rw [List.getLast?_eq_some_getLast (List.cons_ne_nil c s), Option.mem_some] at hd
      rw [← hd]
      exact Bool.eq_false_iff.mpr (htrimmed (List.cons_ne_nil c s))

end Plain

section Nodes

variable (schema : Schema) (key : Str)

theorem quoted_closed (double : Bool) (v : Str) : quoted key double (.closed v []) = .entry key (.str v) := rfl

theorem quoted_eq_entry {double : Bool} {scan : Scan} {key' : Str} {value : Scalar}
    (h : quoted key double scan = .entry key' value) :
    ∃ content rest, scan = .closed content rest ∧ key' = key ∧ value = .str content := by
  unfold quoted at h
  split at h
  next content rest =>
    split at h
    · cases h
      exact ⟨content, rest, rfl, rfl, rfl⟩
    · cases h
  next => cases h
  next => cases h

theorem double_of_quoted {double : Bool} {scan : Scan} {o : Open} (h : quoted key double scan = .opens o) :
    o.double = double := by
  unfold quoted at h
  split at h
  · split at h <;> cases h
  · cases h
    rfl
  · cases h

-- What may become of a value.
theorem quoted_cases (double : Bool) (scan : Scan) :
    (∃ value, quoted key double scan = .entry key value) ∨
      (∃ o, quoted key double scan = .opens o ∧ o.key = key) ∨ quoted key double scan = .error := by
  unfold quoted
  split
  · split
    · exact .inl ⟨_, rfl⟩
    · exact .inr (.inr rfl)
  · exact .inr (.inl ⟨_, rfl, rfl⟩)
  · exact .inr (.inr rfl)

theorem readNode_cases (text : Str) :
    (∃ value, readNode schema key text = .entry key value) ∨
      (∃ o, readNode schema key text = .opens o ∧ o.key = key) ∨ readNode schema key text = .error := by
  unfold readNode
  split
  · exact .inl ⟨_, rfl⟩
  · exact .inl ⟨_, rfl⟩
  · exact quoted_cases key false _
  · exact quoted_cases key true _
  · split
    · exact .inl ⟨_, rfl⟩
    · exact .inr (.inr rfl)

theorem readNode_single (s : Str) : readNode schema key (' ' :: '\'' :: s) = quoted key false (scanSingle false s) :=
  rfl

theorem readNode_double (s : Str) : readNode schema key (' ' :: '"' :: s) = quoted key true (scanDouble .text s) :=
  rfl

theorem readNode_doubled (v : Str) :
    readNode schema key (' ' :: '\'' :: (v.flatMap fun c => if c = '\'' then ['\'', '\''] else [c]) ++ ['\'']) =
      .entry key (.str v) := by
  rw [List.cons_append, List.cons_append, readNode_single, scanSingle_doubled, quoted_closed]

theorem readNode_single_iff (v : Str) :
    readNode schema key (' ' :: '\'' :: v ++ ['\'']) = .entry key (.str v) ↔ '\'' ∉ v := by
  rw [List.cons_append, List.cons_append, readNode_single]
  constructor
  · intro h
    obtain ⟨content, rest, hscan, -, hcontent⟩ := quoted_eq_entry key h
    cases hcontent
    rcases (scanSingle_closed _).1 hscan with ⟨-, hquote⟩ | hlength
    · exact hquote
    · rw [List.length_append, List.length_singleton] at hlength
      omega
  · intro h
    rw [scanSingle_of_notMem h, quoted_closed]

theorem readNode_double_iff (v : Str) :
    readNode schema key (' ' :: '"' :: v ++ ['"']) = .entry key (.str v) ↔ v.all notSpecial = true := by
  rw [List.cons_append, List.cons_append, readNode_double]
  constructor
  · intro h
    obtain ⟨content, rest, hscan, -, hcontent⟩ := quoted_eq_entry key h
    cases hcontent
    rcases scanDouble_closed _ .text hscan with ⟨-, hall⟩ | hlength
    · exact hall
    · rw [List.length_append, List.length_singleton] at hlength
      omega
  · intro h
    rw [scanDouble_of_all h, quoted_closed]

-- A quoted scalar is longer than its content.
theorem quoted_length (double : Bool) {s v : Str} {q : Char}
    (h : quoted key double (if double then scanDouble .text s else scanSingle false s) = .entry key (.str v))
    (hlength : (q :: s).length ≤ v.length) : False := by
  obtain ⟨content, rest, hscan, -, hcontent⟩ := quoted_eq_entry key h
  cases hcontent
  rw [List.length_cons] at hlength
  cases double with
  | true =>
      rcases scanDouble_closed _ .text hscan with ⟨hs, -⟩ | hlong
      · rw [hs, List.length_append, List.length_cons] at hlength
        omega
      · omega
  | false =>
      rcases (scanSingle_closed _).1 hscan with ⟨hs, -⟩ | hlong
      · rw [hs, List.length_append, List.length_cons] at hlength
        omega
      · omega

theorem isPlain_nil : IsPlain [] where
  starts := fun h => absurd rfl h
  comment := by
    intro w _ h
    cases List.infix_nil.mp h
  key := by
    intro w _ h
    cases List.infix_nil.mp h
  colon := nofun
  trimmed := nofun

-- Nothing of the text is left out where the content is as long.
theorem scanPlain_fills {t v : Str} (htail : t <:+ v) (h : (scanPlain ' ' t).1.rdropWhile isWhite = v) :
    t = v ∧ scanPlain ' ' v = (v, []) ∧ v.rdropWhile isWhite = v := by
  have hcontent := List.rdropWhile_prefix isWhite (l := (scanPlain ' ' t).1)
  rw [h] at hcontent
  have hscan := scanPlain_append ' ' t
  have hfirstpart : (scanPlain ' ' t).1 <+: t := ⟨_, hscan⟩
  have ht : t = v := htail.eq_of_length_le (hcontent.length_le.trans hfirstpart.length_le)
  rw [ht] at hcontent hscan hfirstpart h
  have hfirst : (scanPlain ' ' v).1 = v := hfirstpart.eq_of_length_le hcontent.length_le
  rw [hfirst] at hscan h
  have hsecond : (scanPlain ' ' v).2 = [] := List.append_cancel_left (hscan.trans (List.append_nil v).symm)
  exact ⟨ht, Prod.ext hfirst hsecond, h⟩

theorem isPlain_of_readNode {v : Str} (h : readNode schema key (' ' :: v) = .entry key (.str v)) :
    IsPlain v ∧ schema.value v = .str v := by
  have htail : v.dropWhile isWhite <:+ v := List.dropWhile_suffix _
  have hskip : (' ' :: v).dropWhile isWhite = v.dropWhile isWhite := rfl
  unfold readNode at h
  rw [hskip] at h
  generalize v.dropWhile isWhite = t at htail h
  split at h
  next =>
    have hvalue := (Line.entry.inj h).2
    obtain rfl := schema.string _ _ hvalue
    exact ⟨isPlain_nil, hvalue⟩
  next =>
    have hvalue := (Line.entry.inj h).2
    obtain rfl := schema.string _ _ hvalue
    cases List.suffix_nil.mp htail
  next s => exact (quoted_length key false h htail.length_le).elim
  next s => exact (quoted_length key true h htail.length_le).elim
  next =>
    split at h
    next hplain =>
      have hvalue := (Line.entry.inj h).2
      obtain ⟨rfl, hscan, htrimmed⟩ := scanPlain_fills htail (schema.string _ _ hvalue).symm
      rw [hscan, htrimmed] at hvalue
      refine ⟨?_, hvalue⟩
      cases t with
      | nil => exact isPlain_nil
      | cons c s => exact isPlain_iff.mpr ⟨hplain.1, hscan, htrimmed⟩
    next => cases h

theorem readNode_plain {v : Str} (hplain : IsPlain v) :
    readNode schema key (' ' :: v) = .entry key (schema.value v) := by
  cases v with
  | nil => rfl
  | cons c s =>
      obtain ⟨hstarts, hscan, htrimmed⟩ := isPlain_iff.mp hplain
      obtain ⟨hwhite, hcomment, hsingle, hdouble⟩ := startsPlain_head hstarts
      have hskip : (' ' :: c :: s).dropWhile isWhite = c :: s := by
        rw [List.dropWhile_cons_of_pos (by rfl), List.dropWhile_cons_of_neg]
        rw [hwhite]
        exact Bool.false_ne_true
      unfold readNode
      rw [hskip]
      split
      next heq => cases heq
      next heq => exact absurd (List.cons.inj heq).1 hcomment
      next heq => exact absurd (List.cons.inj heq).1 hsingle
      next heq => exact absurd (List.cons.inj heq).1 hdouble
      next => rw [hscan, if_pos ⟨hstarts, nofun⟩, htrimmed]

theorem readNode_plain_iff (v : Str) :
    readNode schema key (' ' :: v) = .entry key (.str v) ↔ IsPlain v ∧ schema.value v = .str v := by
  constructor
  · exact isPlain_of_readNode schema key
  · rintro ⟨hplain, hvalue⟩
    rw [readNode_plain schema key hplain, hvalue]

end Nodes

end MesosPoc.Yaml
