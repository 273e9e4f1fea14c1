import MesosPoc.Python
import MesosPoc.Replace

namespace MesosPoc.Shell

-- What bash and sed make of the words that a script puts together.

def isBlank (c : Char) : Bool :=
  c = ' ' ∨ c = '\t' ∨ c = '\n'

-- The fields of an expansion that is not quoted.
def fields (s : Str) : List Str :=
  (s.splitOnP isBlank).filter (· ≠ [])

-- A word with a pattern character. An opening bracket counts with any closing one after
-- it, also where bash finds no bracket expression ([], [!], or a slash between them), so
-- that no other name matches.
def isPattern (word : Str) : Bool :=
  word.any (fun c => c = '*' ∨ c = '?') || (word.dropWhile (· ≠ '[')).any (· = ']')

section Expansion

-- The names of the files that match a pattern, in order.
variable (files : Str → List Str)

-- A pattern that no file matches stays as it is.
def expand (word : Str) : List Str :=
  if isPattern word && files word ≠ [] then files word else [word]

-- $value
def unquoted (value : Str) : List Str :=
  (fields value).flatMap (expand files)

-- text$value, where the text is quoted and has no pattern character.
def attached (text value : Str) : List Str :=
  match fields value with
  | [] => [text]
  | first :: rest => ((text ++ first) :: rest).flatMap (expand files)

end Expansion

def isEchoOption : Str → Bool
  | '-' :: c :: rest => (c :: rest).all fun c => c = 'n' ∨ c = 'e' ∨ c = 'E'
  | _ => false

-- What $(echo words) gives.
def echo (words : List Str) : Str :=
  [' '].intercalate (words.dropWhile isEchoOption)

-- The words of a command line, and its redirection. Other operators than this one do
-- not occur outside quotes.
inductive Token
  | word (text : Str)
  | redirect
deriving DecidableEq

inductive Mode
  | plain
  | quoted
  | escaped

def flush : Option Str → List Token
  | none => []
  | some word => [.word word]

-- The mode and the word so far, if one has begun.
def tokenize : Mode → Option Str → Str → List Token
  | _, word, [] => flush word
  | .plain, word, c :: rest =>
      if isBlank c then flush word ++ tokenize .plain none rest
      else if c = '>' then flush word ++ .redirect :: tokenize .plain none rest
      else if c = '"' then tokenize .quoted (some (word.getD [])) rest
      else tokenize .plain (some (word.getD [] ++ [c])) rest
  | .quoted, word, c :: rest =>
      if c = '"' then tokenize .plain word rest
      else if c = '\\' then tokenize .escaped word rest
      else tokenize .quoted (some (word.getD [] ++ [c])) rest
  | .escaped, word, c :: rest =>
      if c = '$' ∨ c = '\x60' ∨ c = '"' ∨ c = '\\' then tokenize .quoted (some (word.getD [] ++ [c])) rest
      else tokenize .quoted (some (word.getD [] ++ ['\\', c])) rest

-- The text up to the next slash that no backslash protects, and what follows it.
def untilSlash : Str → Option (Str × Str)
  | [] => none
  | '\\' :: c :: rest => (untilSlash rest).map fun (text, rest) => ('\\' :: c :: text, rest)
  | '/' :: rest => some ([], rest)
  | c :: rest => (untilSlash rest).map fun (text, rest) => (c :: text, rest)

-- A replacement of sed. None stands for the text that was matched.
def parseReplacement : Str → Option (List (Option Char))
  | [] => some []
  | '\\' :: c :: rest =>
      if c = '/' ∨ c = '&' ∨ c = '\\' then (parseReplacement rest).map (some c :: ·) else none
  | '\\' :: [] => none
  | '&' :: rest => (parseReplacement rest).map (none :: ·)
  | c :: rest => (parseReplacement rest).map (some c :: ·)

-- An expression that matches its own text only.
def isLiteral (expression : Str) : Bool :=
  expression ≠ [] && expression.all fun c =>
    !(c = '.' ∨ c = '*' ∨ c = '[' ∨ c = ']' ∨ c = '^' ∨ c = '$' ∨ c = '\\')

structure Substitution where
  text : Str
  replacement : List (Option Char)

-- s/text/replacement/g
def parseScript : Str → Option Substitution
  | 's' :: '/' :: script =>
      (untilSlash script).bind fun (text, script) =>
        (untilSlash script).bind fun (replacement, flags) =>
          if flags = ['g'] ∧ isLiteral text then
            (parseReplacement replacement).map fun replacement => { text, replacement }
          else none
  | _ => none

def Substitution.inserted (s : Substitution) : Str :=
  s.replacement.flatMap fun c => (c.map fun c => [c]).getD s.text

def Substitution.run (line : Str) (s : Substitution) : Str :=
  Replace.replaceAll s.text s.inserted line

-- sed with its scripts on the lines of a file. What other scripts do is left open.
def sed (other : List Str → List Str → List Str) (scripts : List Str) (lines : List Str) : List Str :=
  match scripts.mapM parseScript with
  | some substitutions => lines.map fun line => substitutions.foldl Substitution.run line
  | none => other scripts lines

end MesosPoc.Shell
