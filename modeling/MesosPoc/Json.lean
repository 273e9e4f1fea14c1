import MesosPoc.Python

namespace MesosPoc

-- The values of json.loads. A unicode string is kept as its UTF-8 bytes, a float
-- as its literal, and an object with its pairs in the order of the text.
inductive Json
  | null
  | bool (value : Bool)
  | int (value : Int)
  | float (literal : Str)
  | str (value : Str)
  | arr (items : List Json)
  | obj (pairs : List (Str × Json))

namespace Json

open Python

-- A dict is built from the pairs one after the other: the last one of a key wins.
def lookup (key : Str) : List (Str × Json) → Option Json
  | [] => none
  | (name, value) :: rest => (lookup key rest).or (if name = key then some value else none)

-- j[key] for a string key.
def getItem (j : Json) (key : Str) : Except PyError Json :=
  match j with
  | .obj pairs =>
      match lookup key pairs with
      | some value => .ok value
      | none => .error (.keyError key)
  | _ => .error .typeError

-- j.has_key(key)
def hasKey (j : Json) (key : Str) : Except PyError Bool :=
  match j with
  | .obj pairs => .ok (lookup key pairs).isSome
  | _ => .error .attributeError

-- A float goes by its literal: one that is not 0 but too small for a double, such as
-- 1e-400, is true here and false in Python.
def truthy : Json → Bool
  | .null => false
  | .bool value => value
  | .int value => value ≠ 0
  | .float literal =>
      (literal.takeWhile fun c => c ≠ 'e' ∧ c ≠ 'E').any fun c => c ≠ '0' ∧ c ≠ '.' ∧ c ≠ '-'
  | .str value => value ≠ []
  | .arr items => items ≠ []
  | .obj pairs => pairs ≠ []

-- What a for loop over j yields.
def iterate : Json → Except PyError (List Json)
  | .arr items => .ok items
  | .obj pairs => .ok (pairs.map fun pair => .str pair.1)
  | .str value => .ok (value.map fun c => .str [c])
  | _ => .error .typeError

-- The scanner of json.loads. Its only error is ValueError, here none.

def isBlank (c : Char) : Bool :=
  c = ' ' ∨ c = '\t' ∨ c = '\n' ∨ c = '\r'

def skipBlanks (s : Str) : Str :=
  s.dropWhile isBlank

def byte (n : Nat) : Char := Char.ofNat n

def utf8Encode (code : Nat) : Str :=
  if code < 0x80 then [byte code]
  else if code < 0x800 then [byte (0xC0 + code / 64), byte (0x80 + code % 64)]
  else if code < 0x10000 then
    [byte (0xE0 + code / 4096), byte (0x80 + code / 64 % 64), byte (0x80 + code % 64)]
  else
    [byte (0xF0 + code / 262144), byte (0x80 + code / 4096 % 64), byte (0x80 + code / 64 % 64),
      byte (0x80 + code % 64)]

-- The bytes that may follow the lead byte of a UTF-8 sequence, with the range of
-- the first one.
def utf8Tail (lead : Nat) : Option (Nat × Nat × Nat) :=
  if 0xC2 ≤ lead ∧ lead ≤ 0xDF then some (1, 0x80, 0xBF)
  else if lead = 0xE0 then some (2, 0xA0, 0xBF)
  else if 0xE1 ≤ lead ∧ lead ≤ 0xEF then some (2, 0x80, 0xBF)
  else if lead = 0xF0 then some (3, 0x90, 0xBF)
  else if 0xF1 ≤ lead ∧ lead ≤ 0xF3 then some (3, 0x80, 0xBF)
  else if lead = 0xF4 then some (3, 0x80, 0x8F)
  else none

-- Whether a UTF-8 sequence starts here, or goes on after a lead byte.
def utf8Valid : Nat × Nat × Nat → Str → Bool
  | (0, _, _), [] => true
  | (_ + 1, _, _), [] => false
  | (0, _, _), c :: rest =>
      if c.toNat < 0x80 then utf8Valid (0, 0, 0) rest
      else
        match utf8Tail c.toNat with
        | some tail => utf8Valid tail rest
        | none => false
  | (count + 1, low, high), c :: rest =>
      (low ≤ c.toNat ∧ c.toNat ≤ high) && utf8Valid (count, 0x80, 0xBF) rest

-- The character of a backslash escape other than that of a code point.
def escape (c : Char) : Option Char :=
  if c = '"' ∨ c = '\\' ∨ c = '/' then some c
  else if c = 'b' then some '\x08'
  else if c = 'f' then some '\x0c'
  else if c = 'n' then some '\n'
  else if c = 'r' then some '\r'
  else if c = 't' then some '\t'
  else none

-- The code point of the four digits after \u, and the text after them.
def scanCode (s : Str) : Option Nat :=
  if (s.take 4).length = 4 ∧ IsHex (s.take 4) then some (hexValue (s.take 4)) else none

-- A string up to its closing quote: bytes as they stand, and code points. The
-- number counts the characters of an escape that are still to be passed over.
def scanUnits : Nat → Str → Option (List (Char ⊕ Nat) × Str)
  | _, [] => none
  | skip + 1, _ :: rest => scanUnits skip rest
  | 0, c :: rest =>
      if c = '"' then some ([], rest)
      else if c = '\\' then
        if rest.head? = some 'u' then
          (scanCode rest.tail).bind fun code =>
            (scanUnits 5 rest).map fun (units, rest) => (.inr code :: units, rest)
        else
          (rest.head?.bind escape).bind fun escaped =>
            (scanUnits 1 rest).map fun (units, rest) => (.inl escaped :: units, rest)
      else if c.toNat < 0x20 then none
      else (scanUnits 0 rest).map fun (units, rest) => (.inl c :: units, rest)

-- Two escapes that form a surrogate pair are one code point.
def encodeUnits : List (Char ⊕ Nat) → Str
  | [] => []
  | .inl c :: rest => c :: encodeUnits rest
  | .inr high :: .inr low :: rest =>
      if 0xD800 ≤ high ∧ high ≤ 0xDBFF ∧ 0xDC00 ≤ low ∧ low ≤ 0xDFFF then
        utf8Encode (0x10000 + (high - 0xD800) * 0x400 + (low - 0xDC00)) ++ encodeUnits rest
      else utf8Encode high ++ encodeUnits (.inr low :: rest)
  | .inr code :: rest => utf8Encode code ++ encodeUnits rest

def scanString (s : Str) : Option (Str × Str) :=
  (scanUnits 0 s).map fun (units, rest) => (encodeUnits units, rest)

def scanFraction : Str → Str × Str
  | '.' :: rest =>
      if rest.takeWhile isDigit = [] then ([], '.' :: rest)
      else ('.' :: rest.takeWhile isDigit, rest.dropWhile isDigit)
  | s => ([], s)

def scanSign : Str → Str × Str
  | '-' :: rest => (['-'], rest)
  | '+' :: rest => (['+'], rest)
  | s => ([], s)

def scanExponent : Str → Str × Str
  | [] => ([], [])
  | e :: rest =>
      let digits := (scanSign rest).2
      if (e = 'e' ∨ e = 'E') ∧ digits.takeWhile isDigit ≠ [] then
        (e :: (scanSign rest).1 ++ digits.takeWhile isDigit, digits.dropWhile isDigit)
      else ([], e :: rest)

-- A number after its sign.
def scanMagnitude (negative : Bool) (s : Str) : Option (Json × Str) :=
  let digits := if s.head? = some '0' then ['0'] else s.takeWhile isDigit
  if digits = [] then none
  else
    let fraction := scanFraction (s.drop digits.length)
    let exponent := scanExponent fraction.2
    if fraction.1 = [] ∧ exponent.1 = [] then
      some (.int (if negative then -(decimalValue digits : Int) else decimalValue digits), exponent.2)
    else
      some (.float ((if negative then ['-'] else []) ++ digits ++ fraction.1 ++ exponent.1), exponent.2)

def scanNumber : Str → Option (Json × Str)
  | '-' :: rest => scanMagnitude true rest
  | s => scanMagnitude false s

def constants : List (Str × Json) :=
  [("null".toList, .null), ("true".toList, .bool true), ("false".toList, .bool false),
    ("NaN".toList, .float "NaN".toList), ("Infinity".toList, .float "Infinity".toList),
    ("-Infinity".toList, .float "-Infinity".toList)]

def scanScalar (s : Str) : Option (Json × Str) :=
  match constants.find? fun constant => constant.1.isPrefixOf s with
  | some (literal, value) => some (value, s.drop literal.length)
  | none => scanNumber s

mutual

-- Each call that reads no character is followed by one that does, so that twice
-- the length of the text is enough fuel.
def scanOnce : Nat → Str → Option (Json × Str)
  | 0, _ => none
  | fuel + 1, s =>
      match s with
      | '"' :: rest => (scanString rest).map fun (value, rest) => (.str value, rest)
      | '{' :: rest =>
          match skipBlanks rest with
          | '}' :: rest => some (.obj [], rest)
          | rest => (scanPairs fuel rest).map fun (pairs, rest) => (.obj pairs, rest)
      | '[' :: rest =>
          match skipBlanks rest with
          | ']' :: rest => some (.arr [], rest)
          | rest => (scanItems fuel rest).map fun (items, rest) => (.arr items, rest)
      | s => scanScalar s

def scanPairs : Nat → Str → Option (List (Str × Json) × Str)
  | 0, _ => none
  | fuel + 1, s =>
      match s with
      | '"' :: rest =>
          (scanString rest).bind fun (key, rest) =>
            match skipBlanks rest with
            | ':' :: rest =>
                (scanOnce fuel (skipBlanks rest)).bind fun (value, rest) =>
                  match skipBlanks rest with
                  | '}' :: rest => some ([(key, value)], rest)
                  | ',' :: rest =>
                      (scanPairs fuel (skipBlanks rest)).map fun (pairs, rest) =>
                        ((key, value) :: pairs, rest)
                  | _ => none
            | _ => none
      | _ => none

def scanItems : Nat → Str → Option (List Json × Str)
  | 0, _ => none
  | fuel + 1, s =>
      (scanOnce fuel s).bind fun (value, rest) =>
        match skipBlanks rest with
        | ']' :: rest => some ([value], rest)
        | ',' :: rest =>
            (scanItems fuel (skipBlanks rest)).map fun (items, rest) => (value :: items, rest)
        | _ => none

end

-- json.loads
def loads (s : Str) : Except PyError Json :=
  if utf8Valid (0, 0, 0) s then
    match scanOnce (2 * s.length + 1) (skipBlanks s) with
    | some (value, rest) => if skipBlanks rest = [] then .ok value else .error .valueError
    | none => .error .valueError
  else .error .valueError

end Json

end MesosPoc
