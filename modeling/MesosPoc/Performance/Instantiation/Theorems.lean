import MesosPoc.Performance.Instantiation.Scripts

namespace MesosPoc.Performance

open Shell

-- Whatever the order of the pairs, the template, the files around and what sed makes of
-- other scripts, the file is the template with the placeholders filled in.
def Instantiates (pairs : List Pair) : Prop :=
  ∀ (files : Str → List Str) (other : List Str → List Str → List Str) (template file : FileName)
    (lines : List Str) (order : List Pair), order.Perm pairs →
      instantiateFile files other template file lines order =
        some (file.text, lines.map (fill (valueOf pairs)))

-- A value that reaches sed as it is: no pattern and no ampersand, no option of echo
-- where it goes through encode, and no slash where it does not.
structure Clean (pair : Pair) : Prop where
  pattern : isPattern pair.value = false
  ampersand : '&' ∉ pair.value
  option : pair.encoded = true → isEchoOption pair.value = false
  slash : pair.encoded = false → '/' ∉ pair.value

section Arguments

variable (files : Str → List Str)

theorem plain_blank {s : Str} (h : ∀ c ∈ s, isPlain c = true) : ∀ c ∈ s, isBlank c = false :=
  fun c hc => (isPlain_ne (h c hc)).1

theorem attached_word (text s : Str) (h : ∀ c ∈ s, isBlank c = false) (hp : isPattern (text ++ s) = false) :
    attached files text s = [text ++ s] := by
  by_cases hs : s = []
  · rw [hs, List.append_nil]
    rfl
  · have hword : attached files text s = [text ++ s].flatMap (expand files) := by
      rw [attached, fields_word s h hs]
    rw [hword, List.flatMap_singleton, expand_word files _ hp]

theorem unquoted_head (v : Str) (h : ∀ c ∈ v, isBlank c = false) (hp : isPattern v = false) :
    (unquoted files v).headD [] = v ∧ echo (unquoted files v) = if isEchoOption v then [] else v := by
  by_cases hv : v = []
  · rw [hv]
    exact ⟨rfl, rfl⟩
  · rw [unquoted_word files v h hv, expand_word files v hp]
    refine ⟨rfl, ?_⟩
    by_cases ho : isEchoOption v = true
    · rw [if_pos ho, echo, List.dropWhile_cons_of_pos ho]
      rfl
    · rw [if_neg ho, echo, List.dropWhile_cons_of_neg ho, List.intercalate_singleton]

theorem isEchoOption_slashes (v : Str) (h : isEchoOption v = false) : isEchoOption (slashes v) = false := by
  by_cases hv : '/' ∈ v
  · have hmem : '/' ∈ slashes v := List.mem_flatMap.mpr ⟨'/', hv, by simp⟩
    cases hs : slashes v with
    | nil => rfl
    | cons a rest =>
        cases rest with
        | nil =>
            unfold isEchoOption
            split
            · rename_i heq
              cases heq
            · rfl
        | cons c rest =>
            rw [hs] at hmem
            by_contra hoption
            rw [Bool.not_eq_false] at hoption
            unfold isEchoOption at hoption
            split at hoption
            · rename_i c' rest' heq
              obtain ⟨rfl, rfl, rfl⟩ : a = '-' ∧ c = c' ∧ rest = rest' := by simpa using heq
              have hin : '/' ∈ c :: rest := by
                rcases List.mem_cons.mp hmem with hm | hm
                · cases hm
                · exact hm
              have hc := List.all_eq_true.mp hoption '/' hin
              cases hc
            · cases hoption
  · rw [slashes_of_notMem v hv]
    exact h

theorem slashes_eq_replaceAll (s : Str) : Replace.replaceAll ['/'] ['\\', '/'] s = slashes s :=
  Replace.replaceAll_singleton '/' ['\\', '/'] s

theorem encode_word (v : Str) (h : ∀ c ∈ v, isBlank c = false) (hp : isPattern v = false) :
    encode files v = slashes (if isEchoOption v then [] else v) := by
  have hinner := (unquoted_head files v h hp).2
  have houter : isEchoOption (slashes (if isEchoOption v then [] else v)) = false := by
    by_cases ho : isEchoOption v = true
    · rw [if_pos ho]
      rfl
    · rw [if_neg ho]
      exact isEchoOption_slashes v (Bool.eq_false_iff.mpr ho)
  rw [encode, hinner, slashes_eq_replaceAll, echo, List.dropWhile_cons_of_neg (by rw [houter]; exact Bool.false_ne_true),
    List.intercalate_singleton]

-- The argument that sets a placeholder to a text.
def setting (p : Placeholder) (s : Str) : Str :=
  p.text ++ ['/'] ++ slashes s

theorem setting_start (p : Placeholder) :
    ∀ c ∈ p.text ++ ['/'], (c ≠ '*' ∧ c ≠ '?' ∧ c ≠ '[') ∧ isBlank c = false ∧ c ≠ '"' ∧ c ≠ '\\' := by
  intro c hc
  rcases List.mem_append.mp hc with hc | hc
  · have hblank : isBlank c = false := by
      have h1 := text_ne p ' ' rfl (by decide) (by decide) c hc
      have h2 := text_ne p '\t' rfl (by decide) (by decide) c hc
      have h3 := text_ne p '\n' rfl (by decide) (by decide) c hc
      simp [isBlank, h1, h2, h3]
    exact ⟨⟨text_ne p '*' rfl (by decide) (by decide) c hc, text_ne p '?' rfl (by decide) (by decide) c hc,
      text_ne p '[' rfl (by decide) (by decide) c hc⟩, hblank,
      text_ne p '"' rfl (by decide) (by decide) c hc, text_ne p '\\' rfl (by decide) (by decide) c hc⟩
  · obtain rfl := List.mem_singleton.mp hc
    decide

theorem isPattern_start (p : Placeholder) (s : Str) : isPattern (p.text ++ ['/'] ++ s) = isPattern s :=
  isPattern_skip _ s fun c hc => (setting_start p c hc).1

theorem reaches_start (p : Placeholder) (s : Str) (he : Escaped s) (hb : ∀ c ∈ s, isBlank c = false)
    (hp : isPattern s = false) : Verbatim (p.text ++ ['/'] ++ s) := by
  refine ⟨?_, ?_, (isPattern_start p s).trans hp⟩
  · exact (escaped_of_forall _ fun c hc => (setting_start p c hc).2.2).append he
  · intro c hc
    rcases List.mem_append.mp hc with hc | hc
    · exact (setting_start p c hc).2.1
    · exact hb c hc

theorem reaches_setting (p : Placeholder) (s : Str) (h : ∀ c ∈ s, isPlain c = true) (hp : isPattern s = false) :
    Verbatim (setting p s) :=
  reaches_start p (slashes s) (escaped_slashes s h) (slashes_blank s h) (isPattern_slashes s hp)

-- The text that a pair sends, as long as its value is no pattern.
def sent (pair : Pair) : Str :=
  if pair.encoded && isEchoOption pair.value then [] else pair.value

theorem sent_plain (pair : Pair) : ∀ c ∈ sent pair, isPlain c = true := by
  unfold sent
  split
  · exact List.forall_mem_nil _
  · exact pair.plain

theorem sent_pattern (pair : Pair) (h : isPattern pair.value = false) : isPattern (sent pair) = false := by
  unfold sent
  split
  · rfl
  · exact h

theorem argument_sent (pair : Pair) (hp : isPattern pair.value = false)
    (hslash : pair.encoded = false → '/' ∉ pair.value) :
    argument files pair = [setting pair.placeholder (sent pair)] := by
  have hblank := plain_blank pair.plain
  have hpassed : passed files pair = slashes (sent pair) := by
    unfold passed sent
    cases he : pair.encoded with
    | true =>
        simp only [if_true, Bool.true_and, (unquoted_head files pair.value hblank hp).1]
        exact encode_word files pair.value hblank hp
    | false =>
        simp only [Bool.false_and, Bool.false_eq_true, if_false]
        exact (slashes_of_notMem pair.value (hslash he)).symm
  rw [argument, hpassed]
  exact attached_word files _ _ (slashes_blank _ (sent_plain pair))
    ((isPattern_start _ _).trans (isPattern_slashes _ (sent_pattern pair hp)))

end Arguments

section Running

variable (files : Str → List Str) (other : List Str → List Str → List Str) (template file : FileName)
  (lines : List Str)

theorem mapM_some {α β : Type} (f : α → Option β) (g : α → β) (l : List α) (h : ∀ a ∈ l, f a = some (g a)) :
    l.mapM f = some (l.map g) := by
  induction l with
  | nil => rfl
  | cons a l ih =>
      obtain ⟨ha, hl⟩ := List.forall_mem_cons.mp h
      simp [List.mapM_cons, ha, ih hl]

theorem mapM_none {α β : Type} (f : α → Option β) (l : List α) (a : α) (hm : a ∈ l) (h : f a = none) :
    l.mapM f = none := by
  induction l with
  | nil => cases hm
  | cons b l ih =>
      rw [List.mapM_cons]
      rcases List.mem_cons.mp hm with rfl | hm
      · rw [h]
        rfl
      · rw [ih hm]
        cases f b <;> rfl

theorem flatMap_argument (order : List Pair) (text : Pair → Str) (h : ∀ p ∈ order, argument files p = [text p]) :
    order.flatMap (argument files) = order.map text := by
  rw [List.flatMap_congr h]
  exact List.flatMap_pure_eq_map text order

-- Where every pair sends a text for its placeholder, sed makes one pass for each.
theorem instantiateFile_run (order : List Pair) (hne : order ≠ []) (text : Pair → Str)
    (harguments : ∀ p ∈ order, argument files p = [setting p.placeholder (text p)])
    (hplain : ∀ p ∈ order, ∀ c ∈ text p, isPlain c = true) (hpattern : ∀ p ∈ order, isPattern (text p) = false) :
    instantiateFile files other template file lines order =
      some (file.text, lines.map fun line =>
        order.foldl (pass fun p => insertedText p.placeholder (text p)) line) := by
  have hverbatim : ∀ a ∈ order.map fun p => setting p.placeholder (text p), Verbatim a := by
    intro a ha
    obtain ⟨p, hp, rfl⟩ := List.mem_map.mp ha
    exact reaches_setting p.placeholder (text p) (hplain p hp) (hpattern p hp)
  have hparsed : ((order.map fun p => setting p.placeholder (text p)).map script).mapM parseScript =
      some (order.map fun p => ⟨p.placeholder.text, parts (text p)⟩) := by
    rw [List.map_map, List.mapM_map]
    exact mapM_some _ _ order fun p hp => parseScript_text p.placeholder (text p) (hplain p hp)
  have hnonempty : (order.map fun p => setting p.placeholder (text p)) ≠ [] := by simpa using hne
  rw [instantiateFile, flatMap_argument files order _ harguments,
    templateSh_scripts files other template file lines _ hverbatim, if_neg hnonempty]
  simp only [sed, hparsed, List.foldl_map, Substitution.run, inserted_parts]
  rfl

end Running

section Converse

-- Every pattern matches one file.
def oneFile (_ : Str) : List Str := ["x".toList]

-- The argument that a pair becomes then.
def argumentText (pair : Pair) : Str :=
  if isPattern pair.value then if pair.encoded then setting pair.placeholder "x".toList else "x".toList
  else if pair.encoded then setting pair.placeholder (sent pair) else pair.placeholder.text ++ ['/'] ++ pair.value

theorem oneFile_argument (pair : Pair) :
    argument oneFile pair = [argumentText pair] ∧ Verbatim (argumentText pair) := by
  have hblank := plain_blank pair.plain
  have hx : Verbatim "x".toList := ⟨escaped_of_forall _ (by simp), by simp [isBlank], rfl⟩
  unfold argumentText
  by_cases hp : isPattern pair.value = true
  · rw [if_pos hp]
    have hne : pair.value ≠ [] := by
      intro hnil
      rw [hnil] at hp
      cases hp
    have hfiles : expand oneFile pair.value = ["x".toList] := by
      rw [expand, hp]
      rfl
    have hunquoted := unquoted_word oneFile pair.value hblank hne
    cases he : pair.encoded with
    | true =>
        have hpassed : passed oneFile pair = slashes "x".toList := by
          rw [passed, he, if_pos rfl, hunquoted, hfiles]
          exact encode_word oneFile "x".toList (by simp [isBlank]) rfl
        rw [if_pos rfl, argument, hpassed]
        refine ⟨?_, reaches_setting pair.placeholder "x".toList (List.all_eq_true.mp rfl) rfl⟩
        have hsent := slashes_blank "x".toList (List.all_eq_true.mp rfl)
        exact attached_word oneFile _ _ hsent (isPattern_start pair.placeholder (slashes "x".toList))
    | false =>
        have hwhole : isPattern (pair.placeholder.text ++ ['/'] ++ pair.value) = true := by
          rw [isPattern_start, hp]
        rw [if_neg Bool.false_ne_true]
        refine ⟨?_, hx⟩
        have hpassed : passed oneFile pair = pair.value := by
          rw [passed, he, if_neg Bool.false_ne_true]
        have hword : attached oneFile (pair.placeholder.text ++ ['/']) pair.value =
            [pair.placeholder.text ++ ['/'] ++ pair.value].flatMap (expand oneFile) := by
          rw [attached, fields_word pair.value hblank hne]
        rw [argument, hpassed, hword, List.flatMap_singleton, expand, hwhole]
        rfl
  · rw [if_neg hp]
    have hfalse := Bool.eq_false_iff.mpr hp
    cases he : pair.encoded with
    | true =>
        rw [if_pos rfl]
        refine ⟨argument_sent oneFile pair hfalse (by rw [he]; rintro ⟨⟩), ?_⟩
        exact reaches_setting pair.placeholder (sent pair) (sent_plain pair) (sent_pattern pair hfalse)
    | false =>
        rw [if_neg Bool.false_ne_true]
        have hpassed : passed oneFile pair = pair.value := by
          rw [passed, he, if_neg Bool.false_ne_true]
        rw [argument, hpassed]
        refine ⟨attached_word oneFile _ _ hblank ((isPattern_start _ _).trans hfalse), ?_⟩
        exact reaches_start pair.placeholder pair.value
          (escaped_of_forall _ fun c hc => (isPlain_ne (pair.plain c hc)).2) hblank hfalse

theorem argumentText_unparsed (pair : Pair) (he : pair.encoded = false)
    (h : isPattern pair.value = true ∨ '/' ∈ pair.value) : parseScript (script (argumentText pair)) = none := by
  unfold argumentText
  by_cases hp : isPattern pair.value = true
  · rw [if_pos hp, he]
    rfl
  · rw [if_neg hp, he]
    exact parseScript_slash pair.placeholder pair.value pair.plain (h.resolve_left hp)

theorem argumentText_setting (pair : Pair) (h : pair.encoded = false → isPattern pair.value = false ∧ '/' ∉ pair.value) :
    argumentText pair =
      setting pair.placeholder (if isPattern pair.value then "x".toList else sent pair) := by
  unfold argumentText
  cases he : pair.encoded with
  | true =>
      simp only [if_true]
      split <;> rfl
  | false =>
      obtain ⟨hp, hslash⟩ := h he
      simp only [hp, Bool.false_eq_true, if_false, setting, sent, he, Bool.false_and, slashes_of_notMem _ hslash]

theorem length_insertedText (p : Placeholder) (s : Str) :
    s.length ≤ (insertedText p s).length ∧ ('&' ∈ s → s.length < (insertedText p s).length) := by
  induction s with
  | nil => exact ⟨Nat.le_refl _, fun h => absurd h List.not_mem_nil⟩
  | cons c s ih =>
      have hcons : insertedText p (c :: s) = (if c = '&' then p.text else [c]) ++ insertedText p s := List.flatMap_cons
      rw [hcons, List.length_append, List.length_cons]
      by_cases hc : c = '&'
      · have htext : 2 ≤ p.text.length := by simp [Placeholder.text]
        rw [if_pos hc]
        refine ⟨by omega, fun _ => by omega⟩
      · rw [if_neg hc, List.length_singleton]
        refine ⟨by omega, ?_⟩
        intro hm
        have hs := ih.2 ((List.mem_cons.mp hm).resolve_left (Ne.symm hc))
        omega

theorem insertedText_eq_iff (p : Placeholder) (s : Str) : insertedText p s = s ↔ '&' ∉ s := by
  constructor
  · intro h hm
    have hlen := (length_insertedText p s).2 hm
    rw [h] at hlen
    exact Nat.lt_irrefl _ hlen
  · intro h
    induction s with
    | nil => rfl
    | cons c s ih =>
        rw [List.mem_cons, not_or] at h
        have hcons : insertedText p (c :: s) = (if c = '&' then p.text else [c]) ++ insertedText p s :=
          List.flatMap_cons
        rw [hcons, if_neg (Ne.symm h.1), ih h.2]
        rfl

end Converse

section Characterization

variable {pairs : List Pair}

def anyFile : FileName where
  text := "rc.json".toList
  nonempty := List.cons_ne_nil _ _
  chars := List.all_eq_true.mp rfl

-- A sed that writes one line for any script of another form.
def oneLine (_ _ : List Str) : List Str := [[]]

theorem nonempty_of_instantiates (h : Instantiates pairs) : pairs ≠ [] := by
  rintro rfl
  have hrun := h oneFile oneLine anyFile anyFile [] [] (List.Perm.refl _)
  rw [instantiateFile, List.flatMap_nil, templateSh_scripts oneFile oneLine anyFile anyFile [] []
    (List.forall_mem_nil _)] at hrun
  cases hrun

theorem arguments_oneFile (order : List Pair) :
    order.flatMap (argument oneFile) = order.map argumentText ∧ ∀ a ∈ order.map argumentText, Verbatim a := by
  refine ⟨flatMap_argument oneFile order argumentText fun p _ => (oneFile_argument p).1, ?_⟩
  intro a ha
  obtain ⟨p, -, rfl⟩ := List.mem_map.mp ha
  exact (oneFile_argument p).2

theorem raw_of_instantiates (h : Instantiates pairs) (p : Pair) (hp : p ∈ pairs) (he : p.encoded = false) :
    isPattern p.value = false ∧ '/' ∉ p.value := by
  by_contra hbad
  have hunparsed : isPattern p.value = true ∨ '/' ∈ p.value := by
    by_contra hnot
    push Not at hnot
    exact hbad ⟨Bool.eq_false_iff.mpr hnot.1, hnot.2⟩
  obtain ⟨harguments, hverbatim⟩ := arguments_oneFile pairs
  have hnone : ((pairs.map argumentText).map script).mapM parseScript = none :=
    mapM_none parseScript _ (script (argumentText p))
      (List.mem_map_of_mem (List.mem_map_of_mem hp)) (argumentText_unparsed p he hunparsed)
  have hne : pairs.map argumentText ≠ [] := by simpa using nonempty_of_instantiates h
  have hrun := h oneFile oneLine anyFile anyFile [] pairs (List.Perm.refl _)
  rw [instantiateFile, harguments, templateSh_scripts oneFile oneLine anyFile anyFile [] _ hverbatim,
    if_neg hne, sed, hnone] at hrun
  cases hrun

-- The text that a pair sends among files that its value matches.
def sentAmong (pair : Pair) : Str :=
  if isPattern pair.value then "x".toList else sent pair

theorem passes_of_instantiates (h : Instantiates pairs) (order : List Pair) (hp : order.Perm pairs) (s : Str) :
    order.foldl (pass fun p => insertedText p.placeholder (sentAmong p)) s = fill (valueOf pairs) s := by
  have hargument : ∀ p ∈ order, argument oneFile p = [setting p.placeholder (sentAmong p)] := by
    intro p hm
    rw [(oneFile_argument p).1, argumentText_setting p (raw_of_instantiates h p (hp.mem_iff.mp hm))]
    rfl
  have hplain : ∀ p ∈ order, ∀ c ∈ sentAmong p, isPlain c = true := by
    intro p _
    unfold sentAmong
    split
    · exact List.all_eq_true.mp rfl
    · exact sent_plain p
  have hpattern : ∀ p ∈ order, isPattern (sentAmong p) = false := by
    intro p _
    unfold sentAmong
    split
    · rfl
    · rename_i hnot
      exact sent_pattern p (Bool.eq_false_iff.mpr hnot)
  have hne : order ≠ [] := by
    rintro rfl
    exact nonempty_of_instantiates h hp.nil_eq.symm
  have hrun := h oneFile oneLine anyFile anyFile [s] order hp
  rw [instantiateFile_run oneFile oneLine anyFile anyFile [s] order hne sentAmong hargument hplain hpattern] at hrun
  simpa using hrun

theorem clean_of_inserted (p : Pair) (hraw : p.encoded = false → isPattern p.value = false ∧ '/' ∉ p.value)
    (h : insertedText p.placeholder (sentAmong p) = p.value) : Clean p := by
  by_cases hp : isPattern p.value = true
  · have hx : p.value = "x".toList := by
      rw [← h, sentAmong, if_pos hp]
      rfl
    rw [hx] at hp
    cases hp
  · rw [sentAmong, if_neg hp] at h
    have hoption : p.encoded = true → isEchoOption p.value = false := by
      intro he
      by_contra ho
      rw [Bool.not_eq_false] at ho
      have hnil : p.value = [] := by
        rw [← h, sent, he, ho]
        rfl
      rw [hnil] at ho
      cases ho
    have hsent : sent p = p.value := by
      unfold sent
      cases he : p.encoded with
      | true => rw [hoption he]; rfl
      | false => rfl
    rw [hsent] at h
    exact ⟨Bool.eq_false_iff.mpr hp, (insertedText_eq_iff p.placeholder p.value).mp h, hoption,
      fun he => (hraw he).2⟩

theorem Clean.sent {p : Pair} (h : Clean p) : sent p = p.value := by
  unfold Performance.sent
  cases he : p.encoded with
  | true => rw [h.option he]; rfl
  | false => rfl

-- The exact condition.
theorem instantiates_iff (hd : Distinct pairs) :
    Instantiates pairs ↔ pairs ≠ [] ∧ (∀ p ∈ pairs, Clean p) ∧
      ∀ p ∈ pairs, ∀ q ∈ pairs, p.placeholder ≠ q.placeholder → Clear p q := by
  constructor
  · intro h
    obtain ⟨hown, hclear⟩ := (passes_iff _ pairs hd).mp (passes_of_instantiates h)
    refine ⟨nonempty_of_instantiates h, ?_, hclear⟩
    intro p hp
    exact clean_of_inserted p (raw_of_instantiates h p hp) (hown p hp)
  · rintro ⟨hne, hclean, hclear⟩ files other template file lines order hp
    have hcleanOrder : ∀ p ∈ order, Clean p := fun p hm => hclean p (hp.mem_iff.mp hm)
    have horder : order ≠ [] := by
      rintro rfl
      exact hne hp.nil_eq.symm
    rw [instantiateFile_run files other template file lines order horder sent
      (fun p hm => argument_sent files p (hcleanOrder p hm).pattern (hcleanOrder p hm).slash)
      (fun p _ => sent_plain p) (fun p hm => sent_pattern p (hcleanOrder p hm).pattern)]
    have hown : ∀ p ∈ pairs, insertedText p.placeholder (sent p) = p.value := by
      intro p hm
      rw [(hclean p hm).sent]
      exact (insertedText_eq_iff p.placeholder p.value).mpr (hclean p hm).ampersand
    have hpasses := (passes_iff (fun p => insertedText p.placeholder (sent p)) pairs hd).mpr ⟨hown, hclear⟩ order hp
    simp only [hpasses]

end Characterization

-- A server and an image, and an image with an ampersand.

def serverPair : Pair where
  placeholder := ⟨"API_SERVER".toList, List.cons_ne_nil _ _, List.all_eq_true.mp rfl⟩
  value := "10.0.0.1:8080".toList
  plain := List.all_eq_true.mp rfl
  encoded := false

def imagePair : Pair where
  placeholder := ⟨"POD_IMAGE".toList, List.cons_ne_nil _ _, List.all_eq_true.mp rfl⟩
  value := "kubernetes/pause".toList
  plain := List.all_eq_true.mp rfl
  encoded := true

def ampersandPair : Pair where
  placeholder := ⟨"POD_IMAGE".toList, List.cons_ne_nil _ _, List.all_eq_true.mp rfl⟩
  value := "a&b".toList
  plain := List.all_eq_true.mp rfl
  encoded := true

theorem server_image_distinct : Distinct [serverPair, imagePair] := by
  apply List.pairwise_pair.mpr
  intro h
  cases congrArg Placeholder.name h

theorem server_image_instantiates : Instantiates [serverPair, imagePair] := by
  refine (instantiates_iff server_image_distinct).mpr ⟨List.cons_ne_nil _ _, ?_, ?_⟩
  · intro p hp
    rcases List.mem_pair.mp hp with rfl | rfl
    · exact ⟨rfl, by decide, by decide, by decide +kernel⟩
    · exact ⟨rfl, by decide, by decide, by decide +kernel⟩
  · intro p hp q hq _
    right
    apply Replace.separate_of_disjoint _ q.placeholder.text_ne_nil
    · rcases List.mem_pair.mp hp with rfl | rfl <;> exact List.cons_ne_nil _ _
    · apply Replace.disjoint_of_all
      rcases List.mem_pair.mp hp with rfl | rfl <;> rcases List.mem_pair.mp hq with rfl | rfl <;> rfl

theorem ampersand_not_instantiated :
    instantiateFile (fun _ => []) (fun _ _ => []) anyFile anyFile ["\x7bPOD_IMAGE\x7d".toList] [ampersandPair] =
        some ("rc.json".toList, ["a\x7bPOD_IMAGE\x7db".toList]) ∧
      ¬Instantiates [ampersandPair] := by
  have hrun : instantiateFile (fun _ => []) (fun _ _ => []) anyFile anyFile ["\x7bPOD_IMAGE\x7d".toList]
      [ampersandPair] = some ("rc.json".toList, ["a\x7bPOD_IMAGE\x7db".toList]) := by
    decide +kernel
  have hfill : fill (valueOf [ampersandPair]) "\x7bPOD_IMAGE\x7d".toList = "a&b".toList := by
    decide +kernel
  refine ⟨hrun, ?_⟩
  intro h
  have hlines := h (fun _ => []) (fun _ _ => []) anyFile anyFile ["\x7bPOD_IMAGE\x7d".toList] [ampersandPair]
    (List.Perm.refl _)
  rw [hrun, List.map_singleton, hfill] at hlines
  revert hlines
  decide

end MesosPoc.Performance
