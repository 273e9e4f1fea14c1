import Mathlib.Data.List.DropRight
import Mathlib.Data.List.Infix

namespace MesosPoc

-- A Python 2 str is a string of bytes. One Char stands for one byte.
abbrev Str := List Char

inductive PyError
  | valueError
  | typeError
  | attributeError
  | keyError (key : Str)
  | nameError (name : Str)
  | unboundLocalError (name : Str)
  | channelClosed
  | systemExit (code : Int)
  | calledProcessError (retcode : Str)
  | indexError
  | exception (message : Str)
deriving DecidableEq

namespace Python

def crlf : Str := ['\r', '\n']

def isSpace (c : Char) : Bool :=
  c == ' ' || c == '\t' || c == '\n' || c == '\r' || c == '\x0b' || c == '\x0c'

def endsWith (s suffix : Str) : Bool := suffix.isSuffixOf s

def rstrip (s : Str) : Str := s.rdropWhile isSpace

def strip (s : Str) : Str := (s.dropWhile isSpace).rdropWhile isSpace

def hexDigit (c : Char) : Option Nat :=
  if '0' ≤ c ∧ c ≤ '9' then some (c.toNat - '0'.toNat)
  else if 'a' ≤ c ∧ c ≤ 'f' then some (c.toNat - 'a'.toNat + 10)
  else if 'A' ≤ c ∧ c ≤ 'F' then some (c.toNat - 'A'.toNat + 10)
  else none

-- The number denoted by a string of hex digits, most significant first.
def hexValue (digits : Str) : Nat :=
  digits.foldl (fun value c => 16 * value + (hexDigit c).getD 0) 0

def IsHex (digits : Str) : Prop := digits ≠ [] ∧ ∀ c ∈ digits, (hexDigit c).isSome

instance decidableIsHex (digits : Str) : Decidable (IsHex digits) :=
  have : Decidable (∀ c ∈ digits, (hexDigit c).isSome) := List.decidableBAll _ digits
  inferInstanceAs (Decidable (_ ∧ _))

def isDigit (c : Char) : Bool :=
  '0' ≤ c ∧ c ≤ '9'

-- The number denoted by a string of decimal digits.
def decimalValue (digits : Str) : Nat :=
  digits.foldl (fun value c => 10 * value + (c.toNat - '0'.toNat)) 0

def hexMagnitude (digits : Str) : Except PyError Int :=
  if IsHex digits then .ok (hexValue digits) else .error .valueError

-- The digits of int(s, 16) may follow a 0x or 0X.
def prefixedMagnitude : Str → Except PyError Int
  | '0' :: 'x' :: digits => hexMagnitude digits
  | '0' :: 'X' :: digits => hexMagnitude digits
  | digits => hexMagnitude digits

-- int(s, 16): one sign before the literal is accepted, and blanks around the
-- literal and after its sign.
def int16 (s : Str) : Except PyError Int :=
  match strip s with
  | '+' :: literal => prefixedMagnitude (literal.dropWhile isSpace)
  | '-' :: literal => (prefixedMagnitude (literal.dropWhile isSpace)).map (- ·)
  | literal => prefixedMagnitude literal

def decimalMagnitude (digits : Str) : Except PyError Int :=
  if digits ≠ [] ∧ digits.all isDigit then .ok (decimalValue digits) else .error .valueError

-- int(s)
def int10 (s : Str) : Except PyError Int :=
  match strip s with
  | '+' :: literal => decimalMagnitude (literal.dropWhile isSpace)
  | '-' :: literal => (decimalMagnitude (literal.dropWhile isSpace)).map (- ·)
  | literal => decimalMagnitude literal

end Python

end MesosPoc
