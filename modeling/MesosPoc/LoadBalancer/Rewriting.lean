import MesosPoc.LoadBalancer.Template
import MesosPoc.Regex

namespace MesosPoc.LoadBalancer

open Regex

-- The arguments of a configuration line: a backslash before a blank, a hash or
-- another backslash is dropped.
def unescape : Bool → Str → Str
  | false, [] => []
  | true, [] => ['\\']
  | false, c :: rest => if c = '\\' then unescape true rest else c :: unescape false rest
  | true, c :: rest =>
      if c = ' ' ∨ c = '#' ∨ c = '\\' then c :: unescape false rest else '\\' :: c :: unescape false rest

-- reqrep: a line that matches becomes the replacement.
def applyRule (line : Str) : Line → Str
  | .reqrep pattern replacement =>
      match (parse (.plain none) (unescape false pattern)).bind fun tokens => search tokens true line with
      | none => line
      | some groups => expand groups false (unescape false replacement)
  | _ => line

-- The rules of a backend are applied in order, each to what the one before it
-- has made of the request line.
def rewrite (lines : List Line) (line : Str) : Str :=
  lines.foldl applyRule line

structure Request where
  method : Str
  path : Str
  version : Str
  methodToken : ∀ c ∈ method, c ≠ ' ' ∧ c ≠ ':'
  pathChars : ∀ c ∈ path, c ≠ ' ' ∧ c ≠ '\n'
  versionLine : '\n' ∉ version

def Request.line (request : Request) : Str :=
  request.method ++ ' ' :: (request.path ++ ' ' :: request.version)

-- The path of a request line stands between its first two blanks.
def linePath (line : Str) : Str :=
  (line.dropWhile (· != ' ')).tail.takeWhile (· != ' ')

def forwardedPath (item : Service) (request : Request) : Str :=
  linePath (rewrite (backendSection item).lines request.line)

-- Exactly one leading name is removed from the path.
def StripsOnce (item : Service) (request : Request) : Prop :=
  (request.path = aclPattern item.name → forwardedPath item request = ['/']) ∧
    ∀ rest, request.path = aclPattern item.name ++ '/' :: rest →
      forwardedPath item request = '/' :: rest

def dropSlash (text : Str) : Str :=
  if text.head? = some '/' then text.tail else text

-- What one rule makes of the text after the leading slash.
def strip (name text : Str) : Str :=
  if name <+: text then dropSlash (text.drop name.length) else text

def restTokens : List Token :=
  [.openGroup, .many .any, .closeGroup]

-- The rule as a regular expression.
def ruleTokens (name : Str) : List Token :=
  .lineStart :: .openGroup :: .many (.noneOf [' ', ':']) :: .closeGroup ::
    (literals (" /".toList ++ name) ++ .optional (.oneOf ['/']) :: restTokens)

theorem IsDnsLabel.literal {name : Str} (h : IsDnsLabel name) : Literal name := by
  have hspecial : ((special ++ unsupported).all fun c => !(c.isLower || c.isDigit || c == '-')) = true := by
    decide
  intro c hc hm
  have hno := List.all_eq_true.mp hspecial c hm
  rcases h.2.2.1 c hc with hl | hd | rfl
  · simp [hl] at hno
  · simp [hd] at hno
  · simp at hno

theorem unescape_name (name rest : Str) (h : '\\' ∉ name) :
    unescape false (name ++ rest) = name ++ unescape false rest := by
  induction name with
  | nil => rfl
  | cons c name ih =>
      simp only [List.mem_cons, not_or] at h
      obtain ⟨hc, hname⟩ := h
      have hne : ¬c = '\\' := fun heq => hc heq.symm
      rw [List.cons_append, unescape, if_neg hne, ih hname, List.cons_append]

theorem unescape_start (rest : Str) :
    unescape false ("^([^\\ :]*)\\ /".toList ++ rest) = "^([^ :]*) /".toList ++ unescape false rest := by
  simp [unescape]

theorem unescape_rewriteSearch (name : Str) (h : '\\' ∉ name) :
    unescape false (rewriteSearch name) = "^([^ :]*) /".toList ++ (name ++ "[/]?(.*)".toList) := by
  have htext : rewriteSearch name = "^([^\\ :]*)\\ /".toList ++ name ++ "[/]?(.*)".toList := rfl
  have hend : unescape false "[/]?(.*)".toList = "[/]?(.*)".toList := by simp [unescape]
  rw [htext, List.append_assoc, unescape_start, unescape_name name _ h, hend]

theorem parse_start (rest : Str) :
    parse (.plain none) ("^([^ :]*) /".toList ++ rest) =
      (parse (.plain (some (.oneOf ['/']))) rest).map fun tokens =>
        [.lineStart, .openGroup, .many (.noneOf [' ', ':']), .closeGroup, .one (.oneOf [' '])] ++ tokens := by
  have htext : "^([^ :]*) /".toList = ['^', '(', '[', '^', ' ', ':', ']', '*', ')', ' ', '/'] := by simp
  have hclass : ∀ more, parse (.bracket false []) ('^' :: ' ' :: ':' :: ']' :: more) =
      parse (.plain (some (.noneOf [' ', ':']))) more := fun _ => rfl
  rw [htext]
  simp only [List.cons_append, List.nil_append]
  rw [parse_lineStart, parse_openGroup, parse_bracket, hclass, parse_many, parse_closeGroup,
    parse_literal ' ' _ _ (by decide), parse_literal '/' _ _ (by decide)]
  simp only [Option.map_map]
  rfl

theorem parse_rule (name : Str) (h : IsDnsLabel name) :
    parse (.plain none) (unescape false (rewriteSearch name)) = some (ruleTokens name) := by
  have hslash : '\\' ∉ name := fun hm => h.literal '\\' hm (by decide)
  have hrest : ∀ pending, parse (.plain pending) "[/]?(.*)".toList =
      some (flush pending (.optional (.oneOf ['/']) :: restTokens)) := by
    intro pending
    rfl
  have hname := parse_literals name "[/]?(.*)".toList (some (.oneOf ['/'])) _ h.literal hrest
  rw [unescape_rewriteSearch name hslash, parse_start, hname]
  rfl

theorem matchFrom_rest (text : Str) (seen : Seen) (ht : '\n' ∉ text) :
    matchFrom restTokens text seen = some ((seen.matched ++ text) :: (seen.groups ++ [text])) := by
  have hrun : ∀ c ∈ text, CharClass.any.accepts c = true := by
    intro c hc
    have hne : c ≠ '\n' := fun heq => ht (heq ▸ hc)
    simpa [CharClass.accepts] using hne
  have hmany := manyFrom_longest .any (matchFrom [.closeGroup]) text [] seen.open
    ((seen.matched ++ text) :: (seen.groups ++ [text])) hrun (by simp)
    (by simp [matchFrom, Seen.close, Seen.open, Seen.take])
  rw [List.append_nil] at hmany
  exact hmany

theorem matchFrom_slash (text : Str) (seen : Seen) (ht : '\n' ∉ text) :
    matchFrom (.optional (.oneOf ['/']) :: restTokens) text seen =
      some ((seen.matched ++ text) :: (seen.groups ++ [dropSlash text])) := by
  cases text with
  | nil => exact matchFrom_rest [] seen ht
  | cons c text =>
      by_cases hc : c = '/'
      · subst hc
        have htext : '\n' ∉ text := fun hm => ht (List.mem_cons_of_mem _ hm)
        have hrest := matchFrom_rest text (seen.take ['/']) htext
        have hslash : (CharClass.oneOf ['/']).accepts '/' = true := by decide
        rw [matchFrom]
        simp only [hslash, if_true, hrest, Option.some_or]
        simp [Seen.take, dropSlash]
      · have hslash : (CharClass.oneOf ['/']).accepts c = false := by simp [CharClass.accepts, hc]
        have hdrop : dropSlash (c :: text) = c :: text := by simp [dropSlash, hc]
        rw [matchFrom, hdrop]
        simp only [hslash, Bool.false_eq_true, if_false]
        exact matchFrom_rest (c :: text) seen ht

theorem method_accepted (method : Str) (hm : ∀ c ∈ method, c ≠ ' ' ∧ c ≠ ':') :
    ∀ c ∈ method, (CharClass.noneOf [' ', ':']).accepts c = true := by
  intro c hc
  obtain ⟨hblank, hcolon⟩ := hm c hc
  simp [CharClass.accepts, hblank, hcolon]

theorem search_rule (name method text : Str) (hm : ∀ c ∈ method, c ≠ ' ' ∧ c ≠ ':')
    (ht : '\n' ∉ name ++ text) :
    search (ruleTokens name) true (method ++ ' ' :: '/' :: (name ++ text)) =
      some [method ++ ' ' :: '/' :: (name ++ text), method, dropSlash text] := by
  have htext : '\n' ∉ text := fun h => ht (List.mem_append_right _ h)
  rw [ruleTokens, search_anchored, matchFrom, matchFrom]
  apply manyFrom_longest _ _ method (' ' :: '/' :: (name ++ text)) _ _ (method_accepted method hm)
  · intro c hc
    obtain rfl : ' ' = c := Option.some.inj hc
    decide
  · have hsplit : ' ' :: '/' :: (name ++ text) = (" /".toList ++ name) ++ text := by simp
    rw [matchFrom, hsplit, matchFrom_literals, matchFrom_slash text _ htext]
    simp [Seen.start, Seen.open, Seen.take, Seen.close]

theorem search_rule_none (name method text : Str) (hm : ∀ c ∈ method, c ≠ ' ' ∧ c ≠ ':')
    (hn : ¬name <+: text) :
    search (ruleTokens name) true (method ++ ' ' :: '/' :: text) = none := by
  rw [ruleTokens, search_anchored, matchFrom, matchFrom]
  apply manyFrom_eq_none _ _ method (' ' :: '/' :: text) _ (method_accepted method hm)
  · intro c hc
    obtain rfl : ' ' = c := Option.some.inj hc
    decide
  · intro before after hsplit
    have hliteral : (" /".toList ++ name : Str) = ' ' :: '/' :: name := by simp
    rw [matchFrom, hliteral]
    apply matchFrom_literals_none
    intro hprefix
    cases after with
    | nil =>
        rw [List.nil_append, List.cons_prefix_cons, List.cons_prefix_cons] at hprefix
        exact hn hprefix.2.2
    | cons c after =>
        rw [List.cons_append, List.cons_prefix_cons] at hprefix
        have hc : c ∈ method := by simp [hsplit]
        exact (hm c hc).1 hprefix.1.symm

-- One rule strips the name from what follows the leading slash of the path.
theorem applyRule_rule (name method text : Str) (h : IsDnsLabel name)
    (hm : ∀ c ∈ method, c ≠ ' ' ∧ c ≠ ':') (ht : '\n' ∉ text) :
    applyRule (method ++ ' ' :: '/' :: text) (.reqrep (rewriteSearch name) rewriteReplacement) =
      method ++ ' ' :: '/' :: strip name text := by
  have hreplacement : unescape false rewriteReplacement = "\\1 /\\2".toList := by
    decide
  have hexpand : ∀ line rest : Str, expand [line, method, rest] false "\\1 /\\2".toList =
      method ++ ' ' :: '/' :: rest := by
    intro line rest
    simp [expand]
  by_cases hn : name <+: text
  · obtain ⟨rest, rfl⟩ := hn
    simp only [applyRule, parse_rule name h, Option.bind_some, search_rule name method rest hm ht,
      hreplacement, hexpand, strip, List.prefix_append, if_true, List.drop_left]
  · simp only [applyRule, parse_rule name h, Option.bind_some, search_rule_none name method text hm hn,
      strip, if_neg hn]

end MesosPoc.LoadBalancer
