import MesosPoc.Performance.Instantiation.Passes
import MesosPoc.Shell.Fields

namespace MesosPoc.Performance

open Shell

-- A text that means itself between double quotes, with the backslashes of encode.
inductive Escaped : Str → Prop
  | nil : Escaped []
  | char (c : Char) (s : Str) (hc : c ≠ '"' ∧ c ≠ '\\') (h : Escaped s) : Escaped (c :: s)
  | slash (s : Str) (h : Escaped s) : Escaped ('\\' :: '/' :: s)

-- What encode makes of a text.
def slashes (s : Str) : Str :=
  s.flatMap fun c => if c = '/' then ['\\', '/'] else [c]

section Words

theorem isPlain_ne {c : Char} (h : isPlain c = true) : isBlank c = false ∧ c ≠ '"' ∧ c ≠ '\\' := by
  simp only [isPlain, Bool.not_eq_true', decide_eq_false_iff_not, not_or] at h
  refine ⟨?_, h.2.1, h.2.2.2.2.2⟩
  simpa using h.1

theorem Escaped.append {s t : Str} (hs : Escaped s) (ht : Escaped t) : Escaped (s ++ t) := by
  induction hs with
  | nil => exact ht
  | char c s hc _ ih => exact .char c _ hc ih
  | slash s _ ih => exact .slash _ ih

theorem escaped_of_forall (s : Str) (h : ∀ c ∈ s, c ≠ '"' ∧ c ≠ '\\') : Escaped s := by
  induction s with
  | nil => exact .nil
  | cons c s ih =>
      obtain ⟨hc, hs⟩ := List.forall_mem_cons.mp h
      exact .char c s hc (ih hs)

theorem escaped_slashes (s : Str) (h : ∀ c ∈ s, isPlain c = true) : Escaped (slashes s) := by
  induction s with
  | nil => exact .nil
  | cons c s ih =>
      obtain ⟨hc, hs⟩ := List.forall_mem_cons.mp h
      unfold slashes at ih ⊢
      rw [List.flatMap_cons]
      by_cases hslash : c = '/'
      · rw [if_pos hslash]
        exact .slash _ (ih hs)
      · rw [if_neg hslash]
        exact .char c _ (isPlain_ne hc).2 (ih hs)

theorem slashes_of_notMem (s : Str) (h : '/' ∉ s) : slashes s = s := by
  induction s with
  | nil => rfl
  | cons c s ih =>
      rw [List.mem_cons, not_or] at h
      unfold slashes at ih ⊢
      rw [List.flatMap_cons, if_neg (Ne.symm h.1), ih h.2]
      rfl

theorem mem_slashes {c : Char} {s : Str} (h : c ∈ slashes s) : c = '\\' ∨ c ∈ s := by
  obtain ⟨d, hd, hc⟩ := List.mem_flatMap.mp h
  by_cases hslash : d = '/'
  · rw [if_pos hslash] at hc
    rcases List.mem_pair.mp hc with rfl | rfl
    · exact Or.inl rfl
    · exact Or.inr (hslash ▸ hd)
  · rw [if_neg hslash] at hc
    exact Or.inr (List.mem_singleton.mp hc ▸ hd)

theorem slashes_blank (s : Str) (h : ∀ c ∈ s, isPlain c = true) : ∀ c ∈ slashes s, isBlank c = false := by
  intro c hc
  rcases mem_slashes hc with rfl | hm
  · rfl
  · exact (isPlain_ne (h c hm)).1

theorem isPattern_eq_false_iff (s : Str) :
    isPattern s = false ↔ (∀ c ∈ s, c ≠ '*' ∧ c ≠ '?') ∧ ']' ∉ s.dropWhile (· ≠ '[') := by
  have hany : ∀ l : Str, l.any (· = ']') = false ↔ ']' ∉ l := by
    intro l
    simp [List.forall_mem_ne']
  rw [isPattern, Bool.or_eq_false_iff, hany]
  simp

theorem isPattern_skip (x v : Str) (hx : ∀ c ∈ x, c ≠ '*' ∧ c ≠ '?' ∧ c ≠ '[') :
    isPattern (x ++ v) = isPattern v := by
  have hstars : x.any (fun c => c = '*' ∨ c = '?') = false := by
    rw [List.any_eq_false]
    intro c hc
    simp [(hx c hc).1, (hx c hc).2.1]
  have hdrop : (x ++ v).dropWhile (· ≠ '[') = v.dropWhile (· ≠ '[') :=
    List.dropWhile_append_of_pos fun c hc => decide_eq_true (hx c hc).2.2
  rw [isPattern, List.any_append, hstars, Bool.false_or, hdrop]
  rfl

-- A word between texts without pattern characters.
theorem isPattern_append (x v y : Str) (hx : ∀ c ∈ x, c ≠ '*' ∧ c ≠ '?' ∧ c ≠ '[')
    (hy : ∀ c ∈ y, c ≠ '*' ∧ c ≠ '?' ∧ c ≠ ']') (hv : isPattern v = false) : isPattern (x ++ v ++ y) = false := by
  rw [List.append_assoc, isPattern_skip x _ hx]
  rw [isPattern_eq_false_iff] at hv ⊢
  obtain ⟨hstars, hbracket⟩ := hv
  refine ⟨?_, ?_⟩
  · intro c hc
    rcases List.mem_append.mp hc with hc | hc
    · exact hstars c hc
    · exact ⟨(hy c hc).1, (hy c hc).2.1⟩
  · rw [List.dropWhile_append]
    split
    · intro hm
      exact (hy ']' ((List.dropWhile_sublist _).subset hm)).2.2 rfl
    · intro hm
      rcases List.mem_append.mp hm with hm | hm
      · exact hbracket hm
      · exact (hy ']' hm).2.2 rfl

theorem isPattern_slashes (s : Str) (h : isPattern s = false) : isPattern (slashes s) = false := by
  rw [isPattern_eq_false_iff] at h ⊢
  obtain ⟨hstars, hbracket⟩ := h
  refine ⟨?_, ?_⟩
  · intro c hc
    rcases mem_slashes hc with rfl | hm
    · decide
    · exact hstars c hm
  · clear hstars
    induction s with
    | nil => exact List.not_mem_nil
    | cons c s ih =>
        by_cases hslash : c = '/'
        · rw [hslash] at hbracket ⊢
          exact ih hbracket
        · have hcons : slashes (c :: s) = c :: slashes s := by
            simp [slashes, hslash]
          rw [hcons]
          by_cases hopen : c = '['
          · rw [hopen, List.dropWhile_cons_of_neg (by decide)] at hbracket ⊢
            intro hm
            rcases List.mem_cons.mp hm with hm | hm
            · cases hm
            · rcases mem_slashes hm with hm | hm
              · cases hm
              · exact hbracket (List.mem_cons_of_mem _ hm)
          · rw [List.dropWhile_cons_of_pos (by simpa using hopen)] at hbracket ⊢
            exact ih hbracket

end Words

section Tokens

theorem tokenize_word (word s rest : Str) (h : ∀ c ∈ s, isBlank c = false ∧ c ≠ '>' ∧ c ≠ '"') :
    tokenize .plain (some word) (s ++ rest) = tokenize .plain (some (word ++ s)) rest := by
  induction s generalizing word with
  | nil => rw [List.nil_append, List.append_nil]
  | cons c s ih =>
      obtain ⟨⟨hblank, hredirect, hquote⟩, hs⟩ := List.forall_mem_cons.mp h
      rw [List.cons_append, tokenize, if_neg (by simp [hblank]), if_neg hredirect, if_neg hquote,
        Option.getD_some, ih _ hs]
      simp

theorem tokenize_quoted (word s rest : Str) (h : Escaped s) :
    tokenize .quoted (some word) (s ++ rest) = tokenize .quoted (some (word ++ s)) rest := by
  induction h generalizing word with
  | nil => rw [List.nil_append, List.append_nil]
  | char c s hc _ ih =>
      rw [List.cons_append, tokenize, if_neg hc.1, if_neg hc.2, Option.getD_some, ih]
      simp
  | slash s _ ih =>
      have hescape : ¬('\\' = '"') := by decide
      have hplain : ¬('/' = '$' ∨ '/' = '\x60' ∨ '/' = '"' ∨ '/' = '\\') := by decide
      rw [List.cons_append, List.cons_append, tokenize, if_neg hescape, if_pos rfl, tokenize, if_neg hplain,
        Option.getD_some, ih]
      simp

-- A word of a command line is read as one token.
def Reads (word : Str) (token : Token) : Prop :=
  (∀ rest, tokenize .plain none (word ++ ' ' :: rest) = token :: tokenize .plain none rest) ∧
    tokenize .plain none word = [token]

theorem reads_bare (s : Str) (hs : s ≠ []) (h : ∀ c ∈ s, isBlank c = false ∧ c ≠ '>' ∧ c ≠ '"') :
    Reads s (.word s) := by
  cases s with
  | nil => exact absurd rfl hs
  | cons c s =>
      obtain ⟨⟨hblank, hredirect, hquote⟩, hrest⟩ := List.forall_mem_cons.mp h
      have hstart (rest : Str) : tokenize .plain none (c :: s ++ rest) = tokenize .plain (some (c :: s)) rest := by
        rw [List.cons_append, tokenize, if_neg (by simp [hblank]), if_neg hredirect, if_neg hquote,
          Option.getD_none, List.nil_append, tokenize_word [c] s _ hrest]
        rfl
      refine ⟨fun rest => hstart (' ' :: rest), ?_⟩
      have hend := hstart []
      rw [List.append_nil] at hend
      exact hend

theorem reads_string (s : Str) (h : Escaped s) : Reads ('"' :: s ++ ['"']) (.word s) := by
  have hstart (rest : Str) : tokenize .plain none ('"' :: s ++ ['"'] ++ rest) =
      tokenize .plain (some s) rest := by
    have hquoted : tokenize .plain none ('"' :: s ++ ['"'] ++ rest) =
        tokenize .quoted (some []) (s ++ '"' :: rest) := by
      rw [List.append_assoc]
      rfl
    rw [hquoted, tokenize_quoted [] s _ h]
    rfl
  refine ⟨fun rest => hstart (' ' :: rest), ?_⟩
  have hend := hstart []
  rw [List.append_nil] at hend
  exact hend

theorem reads_redirect : Reads ">".toList .redirect :=
  ⟨fun _ => rfl, rfl⟩

theorem tokenize_spaced (first : Str) (rest : List Str) (token : Token) (tokens : List Token)
    (h : List.Forall₂ Reads (first :: rest) (token :: tokens)) :
    tokenize .plain none (spaced first rest) = token :: tokens := by
  induction rest generalizing first token tokens with
  | nil =>
      cases h with
      | cons hfirst hrest =>
          cases hrest
          rw [spaced, List.flatMap_nil, List.append_nil]
          exact hfirst.2
  | cons word rest ih =>
      cases h with
      | cons hfirst hrest =>
          cases hrest with
          | cons hword hrest =>
              have hspaced : spaced first (word :: rest) = first ++ ' ' :: spaced word rest := rfl
              rw [hspaced, hfirst.1, ih word _ _ (.cons hword hrest)]

end Tokens

section Command

-- The script that template.sh makes of an argument.
def script (argument : Str) : Str :=
  "s/".toList ++ argument ++ "/g".toList

-- An argument that reaches sed as it is.
structure Verbatim (argument : Str) : Prop where
  escaped : Escaped argument
  blank : ∀ c ∈ argument, isBlank c = false
  pattern : isPattern argument = false

theorem isFileChar_ne {c : Char} (h : isFileChar c = true) :
    isBlank c = false ∧ c ≠ '>' ∧ c ≠ '"' ∧ c ≠ '*' ∧ c ≠ '?' ∧ c ≠ '[' := by
  refine ⟨?_, ?_, ?_, ?_, ?_, ?_⟩
  · by_contra hblank
    simp only [isBlank, decide_eq_false_iff_not, not_not] at hblank
    rcases hblank with rfl | rfl | rfl <;> cases h
  all_goals
    rintro rfl
    cases h

theorem isPattern_of_forall (s : Str) (h : ∀ c ∈ s, c ≠ '*' ∧ c ≠ '?' ∧ c ≠ '[') : isPattern s = false := by
  have hs := isPattern_skip s [] h
  rw [List.append_nil] at hs
  exact hs

def commandWords (template file : Str) (arguments : List Str) : List Str :=
  template :: (arguments.flatMap fun a => ["-e".toList, '"' :: script a ++ ['"']]) ++ [">".toList, file]

theorem command_spaced (template file : Str) (arguments : List Str) :
    command template file arguments = spaced "sed".toList (commandWords template file arguments) := by
  have harguments : (arguments.flatMap fun a => " -e \"s/".toList ++ a ++ "/g\"".toList) =
      (arguments.flatMap fun a => ["-e".toList, '"' :: script a ++ ['"']]).flatMap fun word => ' ' :: word := by
    induction arguments with
    | nil => rfl
    | cons a rest ih =>
        rw [List.flatMap_cons, List.flatMap_cons, List.flatMap_append, ih]
        simp [script]
  unfold command
  rw [harguments, spaced, commandWords]
  simp only [List.flatMap_cons, List.flatMap_append, List.flatMap_nil, List.append_assoc, List.cons_append,
    List.append_nil]
  rfl

theorem commandWords_plain (template file : FileName) (arguments : List Str) (h : ∀ a ∈ arguments, Verbatim a) :
    ∀ word ∈ "sed".toList :: commandWords template.text file.text arguments,
      word ≠ [] ∧ (∀ c ∈ word, isBlank c = false) ∧ isPattern word = false := by
  have hfile (name : FileName) :
      name.text ≠ [] ∧ (∀ c ∈ name.text, isBlank c = false) ∧ isPattern name.text = false := by
    refine ⟨name.nonempty, fun c hc => (isFileChar_ne (name.chars c hc)).1, ?_⟩
    exact isPattern_of_forall name.text fun c hc => (isFileChar_ne (name.chars c hc)).2.2.2
  intro word hword
  rcases List.mem_cons.mp hword with rfl | hword
  · exact ⟨List.cons_ne_nil _ _, by simp [isBlank], rfl⟩
  rcases List.mem_cons.mp hword with rfl | hword
  · exact hfile template
  rcases List.mem_append.mp hword with hword | hword
  · obtain ⟨a, ha, hword⟩ := List.mem_flatMap.mp hword
    rcases List.mem_pair.mp hword with rfl | rfl
    · exact ⟨List.cons_ne_nil _ _, by simp [isBlank], rfl⟩
    · have hquoted : '"' :: script a ++ ['"'] = "\"s/".toList ++ a ++ "/g\"".toList := by
        simp [script]
      have hopen : ∀ c ∈ "\"s/".toList, isBlank c = false := by simp [isBlank]
      have hclose : ∀ c ∈ "/g\"".toList, isBlank c = false := by simp [isBlank]
      refine ⟨List.cons_ne_nil _ _, ?_, ?_⟩
      · intro c hc
        rw [hquoted] at hc
        rcases List.mem_append.mp hc with hc | hc
        · rcases List.mem_append.mp hc with hc | hc
          · exact hopen c hc
          · exact (h a ha).blank c hc
        · exact hclose c hc
      · rw [hquoted]
        exact isPattern_append _ _ _ (by simp) (by simp) (h a ha).pattern
  · rcases List.mem_pair.mp hword with rfl | rfl
    · exact ⟨List.cons_ne_nil _ _, by simp [isBlank], rfl⟩
    · exact hfile file

def scriptTokens (arguments : List Str) : List Token :=
  arguments.flatMap fun a => [.word "-e".toList, .word (script a)]

theorem sedCall_tokens (file : Str) (arguments : List Str) :
    sedCall (scriptTokens arguments ++ [.redirect, .word file]) = some (arguments.map script, file) := by
  induction arguments with
  | nil => rfl
  | cons a rest ih =>
      have hcons : scriptTokens (a :: rest) ++ [.redirect, .word file] =
          .word "-e".toList :: .word (script a) :: (scriptTokens rest ++ [.redirect, .word file]) := rfl
      rw [hcons, sedCall, if_pos rfl, ih]
      rfl

theorem commandWords_read (template file : FileName) (arguments : List Str) (h : ∀ a ∈ arguments, Verbatim a) :
    List.Forall₂ Reads ("sed".toList :: commandWords template.text file.text arguments)
      (.word "sed".toList :: .word template.text :: (scriptTokens arguments ++ [.redirect, .word file.text])) := by
  have hbare (s : Str) (hs : s ≠ []) (hc : ∀ c ∈ s, isFileChar c = true) : Reads s (.word s) := by
    apply reads_bare s hs
    intro c hm
    obtain ⟨hblank, hredirect, hquote, -⟩ := isFileChar_ne (hc c hm)
    exact ⟨hblank, hredirect, hquote⟩
  have hscripts : List.Forall₂ Reads (arguments.flatMap fun a => ["-e".toList, '"' :: script a ++ ['"']])
      (scriptTokens arguments) := by
    induction arguments with
    | nil => exact .nil
    | cons a rest ih =>
        obtain ⟨ha, hrest⟩ := List.forall_mem_cons.mp h
        have hescaped : Escaped (script a) := by
          apply Escaped.append
          · exact (escaped_of_forall "s/".toList (by simp)).append ha.escaped
          · exact escaped_of_forall "/g".toList (by simp)
        have hoption := hbare "-e".toList (by decide) (List.all_eq_true.mp rfl)
        exact .cons hoption (.cons (reads_string (script a) hescaped) (ih hrest))
  have hsed := hbare "sed".toList (by decide) (List.all_eq_true.mp rfl)
  refine .cons hsed (.cons (hbare _ template.nonempty template.chars) ?_)
  exact List.rel_append hscripts (.cons reads_redirect (.cons (hbare _ file.nonempty file.chars) .nil))

-- template.sh calls sed with one script for each of its arguments.
theorem templateSh_scripts (files : Str → List Str) (other : List Str → List Str → List Str)
    (template file : FileName) (lines arguments : List Str) (h : ∀ a ∈ arguments, Verbatim a) :
    templateSh files other template.text file.text lines arguments =
      some (file.text, if arguments = [] then other [template.text] [] else sed other (arguments.map script) lines) := by
  have hwords := commandWords_plain template file arguments h
  rw [templateSh, command_spaced, evalCommand, unquoted_spaced files _ _ hwords,
    tokenize_spaced _ _ _ _ (commandWords_read template file arguments h)]
  simp only [if_true, sedCall_tokens, Option.map_some, List.map_eq_nil_iff]

end Command

section Parsing

theorem untilSlash_cons (c : Char) (s : Str) (hc : c ≠ '/' ∧ c ≠ '\\') :
    untilSlash (c :: s) = (untilSlash s).map fun (text, rest) => (c :: text, rest) := by
  rw [untilSlash]
  · rintro _ _ rfl _
    exact hc.2 rfl
  · exact hc.1

theorem untilSlash_append (s rest : Str) (h : ∀ c ∈ s, c ≠ '/' ∧ c ≠ '\\') :
    untilSlash (s ++ '/' :: rest) = some (s, rest) := by
  induction s with
  | nil => rfl
  | cons c s ih =>
      obtain ⟨hc, hs⟩ := List.forall_mem_cons.mp h
      rw [List.cons_append, untilSlash_cons c _ hc, ih hs]
      rfl

theorem slashes_cons (c : Char) (s : Str) :
    slashes (c :: s) = (if c = '/' then ['\\', '/'] else [c]) ++ slashes s :=
  List.flatMap_cons

theorem untilSlash_slashes (s rest : Str) (h : ∀ c ∈ s, isPlain c = true) :
    untilSlash (slashes s ++ '/' :: rest) = some (slashes s, rest) := by
  induction s with
  | nil => rfl
  | cons c s ih =>
      obtain ⟨hc, hs⟩ := List.forall_mem_cons.mp h
      rw [slashes_cons]
      by_cases hslash : c = '/'
      · rw [if_pos hslash]
        have hpair : ['\\', '/'] ++ slashes s ++ '/' :: rest = '\\' :: '/' :: (slashes s ++ '/' :: rest) := rfl
        rw [hpair, untilSlash, ih hs]
        rfl
      · rw [if_neg hslash, List.append_assoc, List.singleton_append, untilSlash_cons c _ ⟨hslash, (isPlain_ne hc).2.2⟩,
          ih hs]
        rfl

-- The parts of a replacement: an ampersand stands for the text that was matched.
def parts (s : Str) : List (Option Char) :=
  s.map fun c => if c = '&' then none else some c

theorem parseReplacement_cons (c : Char) (s : Str) (hc : c ≠ '&' ∧ c ≠ '\\') :
    parseReplacement (c :: s) = (parseReplacement s).map (some c :: ·) := by
  rw [parseReplacement]
  · rintro _ _ rfl _
    exact hc.2 rfl
  · rintro rfl _
    exact hc.2 rfl
  · exact hc.1

theorem parseReplacement_slashes (s : Str) (h : ∀ c ∈ s, isPlain c = true) :
    parseReplacement (slashes s) = some (parts s) := by
  induction s with
  | nil => rfl
  | cons c s ih =>
      obtain ⟨hc, hs⟩ := List.forall_mem_cons.mp h
      rw [slashes_cons, parts, List.map_cons]
      by_cases hslash : c = '/'
      · have hpair : ['\\', '/'] ++ slashes s = '\\' :: '/' :: slashes s := rfl
        rw [if_pos hslash, hpair, parseReplacement, if_pos (Or.inl rfl), ih hs, hslash]
        rfl
      · rw [if_neg hslash, List.singleton_append]
        by_cases hamp : c = '&'
        · rw [if_pos hamp, hamp, parseReplacement, ih hs]
          rfl
        · rw [if_neg hamp, parseReplacement_cons c _ ⟨hamp, (isPlain_ne hc).2.2⟩, ih hs]
          rfl

-- The text that sed puts in for a placeholder and a replacement.
def insertedText (p : Placeholder) (s : Str) : Str :=
  s.flatMap fun c => if c = '&' then p.text else [c]

theorem text_chars (p : Placeholder) : ∀ c ∈ p.text, isNameChar c = true ∨ c = '{' ∨ c = '}' := by
  intro c hc
  rw [Placeholder.text, List.cons_append] at hc
  rcases List.mem_cons.mp hc with rfl | hc
  · exact Or.inr (Or.inl rfl)
  · rcases List.mem_append.mp hc with hc | hc
    · exact Or.inl (p.chars c hc)
    · exact Or.inr (Or.inr (List.mem_singleton.mp hc))

theorem text_ne (p : Placeholder) (d : Char) (hname : isNameChar d = false) (hopen : d ≠ '{') (hclose : d ≠ '}') :
    ∀ c ∈ p.text, c ≠ d := by
  rintro c hc rfl
  rcases text_chars p c hc with h | h | h
  · rw [hname] at h
    cases h
  · exact hopen h
  · exact hclose h

theorem isLiteral_text (p : Placeholder) : isLiteral p.text = true := by
  have hne : p.text ≠ [] := p.text_ne_nil
  have hall : (p.text.all fun c => !(c = '.' ∨ c = '*' ∨ c = '[' ∨ c = ']' ∨ c = '^' ∨ c = '$' ∨ c = '\\')) = true := by
    rw [List.all_eq_true]
    intro c hc
    have hdot := text_ne p '.' rfl (by decide) (by decide) c hc
    have hstar := text_ne p '*' rfl (by decide) (by decide) c hc
    have hopen := text_ne p '[' rfl (by decide) (by decide) c hc
    have hclose := text_ne p ']' rfl (by decide) (by decide) c hc
    have hcaret := text_ne p '^' rfl (by decide) (by decide) c hc
    have hdollar := text_ne p '$' rfl (by decide) (by decide) c hc
    have hback := text_ne p '\\' rfl (by decide) (by decide) c hc
    simp [hdot, hstar, hopen, hclose, hcaret, hdollar, hback]
  simp only [isLiteral, hall, Bool.and_true]
  simpa using hne

theorem parseScript_eq (text rest replacement flags whole : Str) (htext : untilSlash whole = some (text, rest))
    (hreplacement : untilSlash rest = some (replacement, flags)) :
    parseScript ('s' :: '/' :: whole) = if flags = ['g'] ∧ isLiteral text then
      (parseReplacement replacement).map fun replacement => { text, replacement } else none := by
  simp only [parseScript, htext, hreplacement, Option.bind_some]

theorem parseScript_text (p : Placeholder) (s : Str) (h : ∀ c ∈ s, isPlain c = true) :
    parseScript (script (p.text ++ ['/'] ++ slashes s)) = some ⟨p.text, parts s⟩ := by
  have hscript : script (p.text ++ ['/'] ++ slashes s) = 's' :: '/' :: (p.text ++ '/' :: (slashes s ++ '/' :: ['g'])) := by
    simp [script]
  have htext : ∀ c ∈ p.text, c ≠ '/' ∧ c ≠ '\\' := fun c hc =>
    ⟨text_ne p '/' rfl (by decide) (by decide) c hc, text_ne p '\\' rfl (by decide) (by decide) c hc⟩
  rw [hscript, parseScript_eq _ _ _ _ _ (untilSlash_append p.text _ htext) (untilSlash_slashes s ['g'] h),
    if_pos ⟨rfl, isLiteral_text p⟩, parseReplacement_slashes s h]
  rfl

theorem inserted_parts (p : Placeholder) (s : Str) :
    Substitution.inserted ⟨p.text, parts s⟩ = insertedText p s := by
  rw [Substitution.inserted, parts, List.flatMap_map, insertedText]
  apply List.flatMap_congr
  intro c _
  by_cases hc : c = '&'
  · rw [if_pos hc, if_pos hc]
    rfl
  · rw [if_neg hc, if_neg hc]
    rfl

-- A raw slash ends the replacement too early.
theorem parseScript_slash (p : Placeholder) (s : Str) (h : ∀ c ∈ s, isPlain c = true) (hslash : '/' ∈ s) :
    parseScript (script (p.text ++ ['/'] ++ s)) = none := by
  obtain ⟨before, after, hsplit, hbefore⟩ := List.eq_append_cons_of_mem hslash
  have hscript : script (p.text ++ ['/'] ++ s) =
      's' :: '/' :: (p.text ++ '/' :: (before ++ '/' :: (after ++ ['/', 'g']))) := by
    simp [script, hsplit]
  have htext : ∀ c ∈ p.text, c ≠ '/' ∧ c ≠ '\\' := fun c hc =>
    ⟨text_ne p '/' rfl (by decide) (by decide) c hc, text_ne p '\\' rfl (by decide) (by decide) c hc⟩
  have hfront : ∀ c ∈ before, c ≠ '/' ∧ c ≠ '\\' := by
    intro c hc
    refine ⟨fun he => hbefore (he ▸ hc), (isPlain_ne (h c ?_)).2.2⟩
    rw [hsplit]
    exact List.mem_append_left _ hc
  have hflags : ¬(after ++ ['/', 'g'] = ['g'] ∧ isLiteral p.text = true) := by
    rintro ⟨hflags, -⟩
    have hlen := congrArg List.length hflags
    rw [List.length_append] at hlen
    simp at hlen
  rw [hscript, parseScript_eq _ _ _ _ _ (untilSlash_append p.text _ htext) (untilSlash_append before _ hfront),
    if_neg hflags]

end Parsing

end MesosPoc.Performance
