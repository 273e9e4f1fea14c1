import Mathlib.Data.List.Basic

namespace MesosPoc.Regex

-- Regular expressions without alternatives, whose groups are not nested and whose
-- quantifiers stand after a single character.
inductive CharClass
  | any
  | oneOf (chars : List Char)
  | noneOf (chars : List Char)
deriving DecidableEq

def CharClass.accepts : CharClass → Char → Bool
  | .any, c => c != '\n'
  | .oneOf chars, c => chars.contains c
  | .noneOf chars, c => !chars.contains c

inductive Token
  | lineStart
  | openGroup
  | closeGroup
  | one (cls : CharClass)
  | optional (cls : CharClass)
  | many (cls : CharClass)
deriving DecidableEq

-- What the parser has read of the next character class.
inductive Scan
  | plain (pending : Option CharClass)
  | escaped
  | bracket (negated : Bool) (chars : List Char)

def flush (pending : Option CharClass) (tokens : List Token) : List Token :=
  match pending with
  | none => tokens
  | some cls => .one cls :: tokens

-- Characters with a meaning that these expressions do not have.
def unsupported : List Char := ['+', '{', '}', '|', '$', ']']

def parse : Scan → List Char → Option (List Token)
  | .plain pending, [] => some (flush pending [])
  | .escaped, [] => none
  | .bracket _ _, [] => none
  | .plain pending, c :: rest =>
      if c = '?' then pending.bind fun cls => (parse (.plain none) rest).map (.optional cls :: ·)
      else if c = '*' then pending.bind fun cls => (parse (.plain none) rest).map (.many cls :: ·)
      else if c = '^' then (parse (.plain none) rest).map fun tokens => flush pending (.lineStart :: tokens)
      else if c = '(' then (parse (.plain none) rest).map fun tokens => flush pending (.openGroup :: tokens)
      else if c = ')' then (parse (.plain none) rest).map fun tokens => flush pending (.closeGroup :: tokens)
      else if c = '[' then (parse (.bracket false []) rest).map (flush pending)
      else if c = '\\' then (parse .escaped rest).map (flush pending)
      else if c = '.' then (parse (.plain (some .any)) rest).map (flush pending)
      else if c ∈ unsupported then none
      else (parse (.plain (some (.oneOf [c]))) rest).map (flush pending)
  | .escaped, c :: rest => parse (.plain (some (.oneOf [c]))) rest
  | .bracket negated chars, c :: rest =>
      if c = ']' ∧ chars ≠ [] then
        parse (.plain (some (if negated then .noneOf chars else .oneOf chars))) rest
      else if c = '^' ∧ chars = [] ∧ negated = false then parse (.bracket true []) rest
      else if c = '-' then none
      else parse (.bracket negated (chars ++ [c])) rest

-- What has been matched so far: whether it began at the start of the line, the
-- text, the part of an open group and the groups that are closed.
structure Seen where
  first : Bool
  matched : List Char
  current : Option (List Char)
  groups : List (List Char)

def Seen.take (seen : Seen) (text : List Char) : Seen :=
  { seen with matched := seen.matched ++ text, current := seen.current.map (· ++ text) }

def Seen.open (seen : Seen) : Seen :=
  { seen with current := some [] }

def Seen.close (seen : Seen) : Seen :=
  { seen with current := none, groups := seen.groups ++ [seen.current.getD []] }

def Seen.start (first : Bool) : Seen :=
  ⟨first, [], none, []⟩

-- As many characters as possible, then fewer.
def manyFrom {α : Type} (cls : CharClass) (next : List Char → Seen → Option α) :
    List Char → Seen → Option α
  | [], seen => next [] seen
  | c :: text, seen =>
      if cls.accepts c then (manyFrom cls next text (seen.take [c])).or (next (c :: text) seen)
      else next (c :: text) seen

-- The whole match and its groups, for the first match in the order of preference.
def matchFrom : List Token → List Char → Seen → Option (List (List Char))
  | [], _, seen => some (seen.matched :: seen.groups)
  | .lineStart :: more, text, seen =>
      if seen.first ∧ seen.matched = [] then matchFrom more text seen else none
  | .openGroup :: more, text, seen => matchFrom more text seen.open
  | .closeGroup :: more, text, seen => matchFrom more text seen.close
  | .one cls :: more, text, seen =>
      match text with
      | [] => none
      | c :: rest => if cls.accepts c then matchFrom more rest (seen.take [c]) else none
  | .optional cls :: more, text, seen =>
      match text with
      | [] => matchFrom more [] seen
      | c :: rest =>
          if cls.accepts c then (matchFrom more rest (seen.take [c])).or (matchFrom more (c :: rest) seen)
          else matchFrom more (c :: rest) seen
  | .many cls :: more, text, seen => manyFrom cls (matchFrom more) text seen

-- The leftmost match in a line.
def search (tokens : List Token) : Bool → List Char → Option (List (List Char))
  | first, [] => matchFrom tokens [] (.start first)
  | first, c :: text => (matchFrom tokens (c :: text) (.start first)).or (search tokens false text)

-- A replacement, with \0 for the match and \1 to \9 for the groups.
def expand (groups : List (List Char)) : Bool → List Char → List Char
  | _, [] => []
  | true, c :: rest =>
      (if '0' ≤ c ∧ c ≤ '9' then (groups[c.toNat - '0'.toNat]?).getD [] else [c]) ++
        expand groups false rest
  | false, c :: rest => if c = '\\' then expand groups true rest else c :: expand groups false rest

section Match

theorem take_nil (seen : Seen) : seen.take [] = seen := by
  obtain ⟨first, matched, current, groups⟩ := seen
  cases current <;> simp [Seen.take]

theorem take_take (seen : Seen) (text more : List Char) :
    (seen.take text).take more = seen.take (text ++ more) := by
  obtain ⟨first, matched, current, groups⟩ := seen
  cases current <;> simp [Seen.take]

-- A greedy run takes all it can when the rest of the expression matches after it.
theorem manyFrom_longest {α : Type} (cls : CharClass) (next : List Char → Seen → Option α)
    (run rest : List Char) (seen : Seen) (a : α) (hrun : ∀ c ∈ run, cls.accepts c = true)
    (hstop : ∀ c, rest.head? = some c → cls.accepts c = false)
    (hnext : next rest (seen.take run) = some a) : manyFrom cls next (run ++ rest) seen = some a := by
  induction run generalizing seen with
  | nil =>
      rw [take_nil] at hnext
      cases rest with
      | nil => exact hnext
      | cons c rest =>
          have hc := hstop c rfl
          simp only [List.nil_append, manyFrom, hc, Bool.false_eq_true, ite_false]
          exact hnext
  | cons c run ih =>
      obtain ⟨hc, hrun⟩ := List.forall_mem_cons.mp hrun
      have hsome := ih (seen.take [c]) hrun (by rw [take_take]; exact hnext)
      simp only [List.cons_append, manyFrom, hc, ite_true, hsome, Option.some_or]

theorem manyFrom_eq_none {α : Type} (cls : CharClass) (next : List Char → Seen → Option α)
    (run rest : List Char) (seen : Seen) (hrun : ∀ c ∈ run, cls.accepts c = true)
    (hstop : ∀ c, rest.head? = some c → cls.accepts c = false)
    (hnext : ∀ before after, run = before ++ after → next (after ++ rest) (seen.take before) = none) :
    manyFrom cls next (run ++ rest) seen = none := by
  induction run generalizing seen with
  | nil =>
      have hnone := hnext [] [] rfl
      rw [take_nil] at hnone
      cases rest with
      | nil => exact hnone
      | cons c rest =>
          have hc := hstop c rfl
          simp only [List.nil_append, manyFrom, hc, Bool.false_eq_true, ite_false]
          exact hnone
  | cons c run ih =>
      obtain ⟨hc, hrun⟩ := List.forall_mem_cons.mp hrun
      have hnone := hnext [] (c :: run) rfl
      rw [take_nil] at hnone
      have hmore : manyFrom cls next (run ++ rest) (seen.take [c]) = none := by
        apply ih (seen.take [c]) hrun
        intro before after hsplit
        rw [take_take]
        exact hnext (c :: before) after (by rw [hsplit, List.cons_append])
      simp only [List.cons_append, manyFrom, hc, ite_true, hmore, Option.none_or]
      exact hnone

def literals (text : List Char) : List Token :=
  text.map fun c => .one (.oneOf [c])

-- Literal characters match themselves.
theorem matchFrom_literals (text rest : List Char) (more : List Token) (seen : Seen) :
    matchFrom (literals text ++ more) (text ++ rest) seen = matchFrom more rest (seen.take text) := by
  induction text generalizing seen with
  | nil => rw [take_nil]; rfl
  | cons c text ih =>
      have hstep : matchFrom (literals (c :: text) ++ more) (c :: text ++ rest) seen =
          matchFrom (literals text ++ more) (text ++ rest) (seen.take [c]) := by
        simp [literals, matchFrom, CharClass.accepts]
      rw [hstep, ih, take_take, List.singleton_append]

theorem matchFrom_literals_none (text line : List Char) (more : List Token) (seen : Seen)
    (h : ¬text <+: line) : matchFrom (literals text ++ more) line seen = none := by
  induction text generalizing line seen with
  | nil => exact absurd List.nil_prefix h
  | cons c text ih =>
      cases line with
      | nil => rfl
      | cons d line =>
          by_cases hd : d = c
          · subst hd
            have htail : ¬text <+: line := fun ht => h (List.cons_prefix_cons.mpr ⟨rfl, ht⟩)
            have hstep : matchFrom (literals (d :: text) ++ more) (d :: line) seen =
                matchFrom (literals text ++ more) line (seen.take [d]) := by
              simp [literals, matchFrom, CharClass.accepts]
            rw [hstep]
            exact ih line (seen.take [d]) htail
          · simp [literals, matchFrom, CharClass.accepts, hd]

-- An anchored expression matches at the start of the line or nowhere.
theorem search_anchored (more : List Token) (line : List Char) :
    search (.lineStart :: more) true line = matchFrom more line (.start true) := by
  have hlater : ∀ text : List Char, search (.lineStart :: more) false text = none := by
    intro text
    induction text with
    | nil => simp [search, matchFrom, Seen.start]
    | cons c text ih =>
        rw [search, ih]
        simp [matchFrom, Seen.start]
  cases line with
  | nil => simp [search, matchFrom, Seen.start]
  | cons c line =>
      rw [search, hlater, Option.or_none]
      simp [matchFrom, Seen.start]

end Match

section Parse

theorem parse_many (cls : CharClass) (rest : List Char) :
    parse (.plain (some cls)) ('*' :: rest) = (parse (.plain none) rest).map (.many cls :: ·) := rfl

theorem parse_lineStart (pending : Option CharClass) (rest : List Char) :
    parse (.plain pending) ('^' :: rest) =
      (parse (.plain none) rest).map fun tokens => flush pending (.lineStart :: tokens) := rfl

theorem parse_openGroup (pending : Option CharClass) (rest : List Char) :
    parse (.plain pending) ('(' :: rest) =
      (parse (.plain none) rest).map fun tokens => flush pending (.openGroup :: tokens) := rfl

theorem parse_closeGroup (pending : Option CharClass) (rest : List Char) :
    parse (.plain pending) (')' :: rest) =
      (parse (.plain none) rest).map fun tokens => flush pending (.closeGroup :: tokens) := rfl

theorem parse_bracket (pending : Option CharClass) (rest : List Char) :
    parse (.plain pending) ('[' :: rest) = (parse (.bracket false []) rest).map (flush pending) := rfl

def special : List Char := ['?', '*', '^', '(', ')', '[', '\\', '.']

-- Characters that stand for themselves.
def Literal (text : List Char) : Prop :=
  ∀ c ∈ text, c ∉ special ++ unsupported

theorem parse_literal (c : Char) (rest : List Char) (pending : Option CharClass)
    (hc : c ∉ special ++ unsupported) :
    parse (.plain pending) (c :: rest) =
      (parse (.plain (some (.oneOf [c]))) rest).map (flush pending) := by
  simp only [List.mem_append, special, List.mem_cons, List.not_mem_nil, or_false, not_or] at hc
  obtain ⟨⟨h1, h2, h3, h4, h5, h6, h7, h8⟩, hu⟩ := hc
  simp only [parse, h1, h2, h3, h4, h5, h6, h7, h8, hu, if_false]

-- A literal text, as long as no quantifier comes after it.
theorem parse_literals (text rest : List Char) (pending : Option CharClass) (tokens : List Token)
    (ht : Literal text) (hrest : ∀ pending, parse (.plain pending) rest = some (flush pending tokens)) :
    parse (.plain pending) (text ++ rest) = some (flush pending (literals text ++ tokens)) := by
  induction text generalizing pending with
  | nil => exact hrest pending
  | cons c text ih =>
      obtain ⟨hc, htext⟩ := List.forall_mem_cons.mp ht
      rw [List.cons_append, parse_literal c _ pending hc, ih (some (.oneOf [c])) htext]
      rfl

end Parse

end MesosPoc.Regex
