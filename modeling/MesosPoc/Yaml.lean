import MesosPoc.Python
import Mathlib.Data.List.DropRight

namespace MesosPoc.Yaml

-- Documents that are a block mapping of scalars: plain, or in single or double quotes.
-- Other nodes and other documents are not read.

-- A value is a string, or something else that a plain scalar stands for.
inductive Scalar
  | str (value : Str)
  | other (text : Str)
deriving DecidableEq

-- What plain scalars stand for. A string is the text itself.
structure Schema where
  value : Str → Scalar
  string : ∀ text s, value text = .str s → s = text

def isWhite (c : Char) : Bool :=
  c = ' ' ∨ c = '\t'

-- The characters that a line may have, but for tabs.
def isPrintable (c : Char) : Bool :=
  (0x20 ≤ c.toNat ∧ c.toNat ≤ 0x7E) ∨
    (0xA0 ≤ c.toNat ∧ c.toNat ≠ 0x2028 ∧ c.toNat ≠ 0x2029 ∧ c.toNat ≠ 0xFEFF ∧ c.toNat ≠ 0xFFFE ∧ c.toNat ≠ 0xFFFF)

section Scanning

-- How far a quoted scalar has got at the end of a line. The line break may be escaped.
inductive Scan
  | closed (content rest : Str)
  | goesOn (content : Str) (escaped : Bool)
  | error

-- An escaped character.
def Scan.insert (c : Char) : Scan → Scan
  | .closed content rest => .closed (c :: content) rest
  | .goesOn content escaped => .goesOn (c :: content) escaped
  | .error => .error

-- A character as it stands. White at the end of a line is dropped.
def Scan.push (c : Char) : Scan → Scan
  | .goesOn [] false => if isWhite c then .goesOn [] false else .goesOn [c] false
  | scan => scan.insert c

-- Whether a quote has been seen that may be the closing one.
def scanSingle : Bool → Str → Scan
  | false, [] => .goesOn [] false
  | true, [] => .closed [] []
  | false, c :: s => if c = '\'' then scanSingle true s else (scanSingle false s).push c
  | true, c :: s => if c = '\'' then (scanSingle false s).insert c else .closed [] (c :: s)

inductive Mode
  | text
  | escape
  | code (digits value : Nat)

def escape (c : Char) : Option Char :=
  match c with
  | '0' => some '\x00'
  | 'a' => some '\x07'
  | 'b' => some '\x08'
  | 't' => some '\t'
  | '\t' => some '\t'
  | 'n' => some '\n'
  | 'v' => some '\x0b'
  | 'f' => some '\x0c'
  | 'r' => some '\r'
  | 'e' => some '\x1b'
  | ' ' => some ' '
  | '"' => some '"'
  | '/' => some '/'
  | '\\' => some '\\'
  | 'N' => some '\u0085'
  | '_' => some '\u00a0'
  | 'L' => some '\u2028'
  | 'P' => some '\u2029'
  | _ => none

-- How many digits the code of a character has.
def codeDigits (c : Char) : Option Nat :=
  match c with
  | 'x' => some 2
  | 'u' => some 4
  | 'U' => some 8
  | _ => none

def scanDouble : Mode → Str → Scan
  | .text, [] => .goesOn [] false
  | .escape, [] => .goesOn [] true
  | .code _ _, [] => .error
  | .text, c :: s =>
      if c = '"' then .closed [] s
      else if c = '\\' then scanDouble .escape s
      else (scanDouble .text s).push c
  | .escape, c :: s =>
      match codeDigits c with
      | some digits => scanDouble (.code digits 0) s
      | none =>
          match escape c with
          | some escaped => (scanDouble .text s).insert escaped
          | none => .error
  | .code digits value, c :: s =>
      match Python.hexDigit c with
      | some digit =>
          if digits ≤ 1 then (scanDouble .text s).insert (Char.ofNat (16 * value + digit))
          else scanDouble (.code (digits - 1) (16 * value + digit)) s
      | none => .error

-- A plain scalar may begin here. Some indicators may begin one that goes on.
def startsPlain : Str → Bool
  | [] => false
  | c :: s =>
      if c = '-' ∨ c = '?' ∨ c = ':' then s.head?.any fun next => !isWhite next
      else !isWhite c && !(",[]\x7b\x7d#&*!|>'\"%@\x60".toList.contains c)

-- A comment, or the sign of a key, ends a plain scalar.
def endsPlain (before c : Char) (s : Str) : Bool :=
  (c = '#' && isWhite before) || (c = ':' && s.head?.all isWhite)

def scanPlain (before : Char) : Str → Str × Str
  | [] => ([], [])
  | c :: s =>
      if endsPlain before c s then ([], c :: s)
      else ((c :: (scanPlain c s).1), (scanPlain c s).2)

-- Nothing but a comment follows a scalar.
def ended (rest : Str) : Bool :=
  rest = [] || (rest.head?.all isWhite && (rest.dropWhile isWhite).head?.all (· = '#'))

end Scanning

-- A quoted scalar that is not closed yet, with the empty lines since.
structure Open where
  key : Str
  double : Bool
  content : Str
  escaped : Bool
  breaks : Nat

-- Line breaks are folded.
def Open.folded (o : Open) : Str :=
  if o.breaks = 0 then (if o.escaped then [] else [' ']) else List.replicate o.breaks '\n'

inductive Line
  | blank
  | entry (key : Str) (value : Scalar)
  | opens (o : Open)
  | error

section Reading

variable (schema : Schema)

def quoted (key : Str) (double : Bool) (scan : Scan) : Line :=
  match scan with
  | .closed content rest => if ended rest then .entry key (.str content) else .error
  | .goesOn content escaped => .opens { key, double, content, escaped, breaks := 0 }
  | .error => .error

-- What stands after the colon of a key.
def readNode (key text : Str) : Line :=
  match text.dropWhile isWhite with
  | [] => .entry key (schema.value [])
  | '#' :: _ => .entry key (schema.value [])
  | '\'' :: s => quoted key false (scanSingle false s)
  | '"' :: s => quoted key true (scanDouble .text s)
  | s =>
      if startsPlain s ∧ (scanPlain ' ' s).2.head? ≠ some ':' then
        .entry key (schema.value ((scanPlain ' ' s).1.rdropWhile isWhite))
      else .error

def isKeyChar (c : Char) : Bool :=
  c.isLower || c = '_'

def readLine (line : Str) : Line :=
  match line.dropWhile isWhite with
  | [] => .blank
  | '#' :: _ => .blank
  | _ =>
      match line.takeWhile isKeyChar, line.dropWhile isKeyChar with
      | [], _ => .error
      | key, ':' :: text => if text.head?.all isWhite then readNode schema key text else .error
      | _, _ => .error

-- The lines that a quoted scalar goes on with may begin anywhere.
def resume (o : Open) (line : Str) : Line :=
  match line.dropWhile isWhite with
  | [] => .opens { o with breaks := o.breaks + 1 }
  | text =>
      match if o.double then scanDouble .text text else scanSingle false text with
      | .closed content rest =>
          if ended rest then .entry o.key (.str (o.content ++ o.folded ++ content)) else .error
      | .goesOn content escaped =>
          .opens { o with content := o.content ++ o.folded ++ content, escaped, breaks := 0 }
      | .error => .error

def step : Option Open → Str → Line
  | none, line => readLine schema line
  | some o, line => resume o line

-- The entries, under the texts of their keys.
def readLines : Option Open → List Str → Option (List (Str × Scalar))
  | none, [] => some []
  | some _, [] => none
  | before, line :: rest =>
      match step schema before line with
      | .blank => readLines none rest
      | .entry key value => (readLines none rest).map ((key, value) :: ·)
      | .opens o => readLines (some o) rest
      | .error => none

def read (text : Str) : Option (List (Str × Scalar)) :=
  if text.all fun c => isPrintable c || c = '\t' || c = '\n' then readLines schema none (text.splitOn '\n')
  else none

end Reading

end MesosPoc.Yaml
