import MesosPoc.Shell

namespace MesosPoc.Performance

open Shell

def isNameChar (c : Char) : Bool :=
  ('A' ≤ c ∧ c ≤ 'Z') ∨ c = '_'

-- {NAME}
structure Placeholder where
  name : Str
  nonempty : name ≠ []
  chars : ∀ c ∈ name, isNameChar c = true

def Placeholder.text (p : Placeholder) : Str :=
  '{' :: p.name ++ ['}']

-- A single-line word without blanks, quotes, dollar, backquote or backslash.
def isPlain (c : Char) : Bool :=
  !(isBlank c ∨ c = '"' ∨ c = '\'' ∨ c = '$' ∨ c = '\x60' ∨ c = '\\')

-- A value for a placeholder, and whether suit.sh passes it through encode.
structure Pair where
  placeholder : Placeholder
  value : Str
  plain : ∀ c ∈ value, isPlain c = true
  encoded : Bool

def isFileChar (c : Char) : Bool :=
  ('a' ≤ c ∧ c ≤ 'z') ∨ ('A' ≤ c ∧ c ≤ 'Z') ∨ ('0' ≤ c ∧ c ≤ '9') ∨ c = '.' ∨ c = '_' ∨ c = '-' ∨ c = '/'

-- A file name as suit.sh has them.
structure FileName where
  text : Str
  nonempty : text ≠ []
  chars : ∀ c ∈ text, isFileChar c = true

section Scripts

variable (files : Str → List Str) (other : List Str → List Str → List Str)

-- encode of suit.sh
def encode (argument : Str) : Str :=
  echo [Replace.replaceAll ['/'] ['\\', '/'] (echo (unquoted files argument))]

-- $(encode $value), or $value
def passed (pair : Pair) : Str :=
  if pair.encoded then encode files ((unquoted files pair.value).headD []) else pair.value

-- '{NAME}'/$value: an argument of template.sh.
def argument (pair : Pair) : List Str :=
  attached files (pair.placeholder.text ++ ['/']) (passed files pair)

-- The text that template.sh puts together.
def command (template file : Str) (arguments : List Str) : Str :=
  "sed ".toList ++ template ++ (arguments.flatMap fun a => " -e \"s/".toList ++ a ++ "/g\"".toList) ++
    " > ".toList ++ file

-- The scripts of a call of sed, and the file that it writes.
def sedCall : List Token → Option (List Str × Str)
  | [.redirect, .word file] => some ([], file)
  | .word option :: .word script :: rest =>
      if option = "-e".toList then (sedCall rest).map fun (scripts, file) => (script :: scripts, file) else none
  | _ => none

-- eval $command, with the lines that the template has. Without a script of its own sed
-- takes the first word for one, and reads no file.
def evalCommand (lines : List Str) (text : Str) : Option (Str × List Str) :=
  match tokenize .plain none ([' '].intercalate (unquoted files text)) with
  | .word sedWord :: .word template :: rest =>
      if sedWord = "sed".toList then
        (sedCall rest).map fun (scripts, file) =>
          (file, if scripts = [] then other [template] [] else sed other scripts lines)
      else none
  | _ => none

-- template.sh: the file that is written, with its lines.
def templateSh (template file : Str) (lines : List Str) (arguments : List Str) : Option (Str × List Str) :=
  evalCommand files other lines (command template file arguments)

-- A call of template.sh in suit.sh.
def instantiateFile (template file : FileName) (lines : List Str) (pairs : List Pair) :
    Option (Str × List Str) :=
  templateSh files other template.text file.text lines (pairs.flatMap (argument files))

end Scripts

-- What instantiation is: the placeholders of a text are found once, and each that has a
-- value is replaced by it.

-- The name of the placeholder that a text starts with.
def holeName : Str → Option Str
  | '{' :: rest =>
      if rest.takeWhile isNameChar ≠ [] ∧ (rest.dropWhile isNameChar).head? = some '}' then
        some (rest.takeWhile isNameChar)
      else none
  | _ => none

def fillFrom (values : Str → Str) : Nat → Str → Str
  | _, [] => []
  | skip + 1, _ :: rest => fillFrom values skip rest
  | 0, c :: rest =>
      match holeName (c :: rest) with
      | some name => values name ++ fillFrom values (name.length + 1) rest
      | none => c :: fillFrom values 0 rest

def fill (values : Str → Str) (s : Str) : Str :=
  fillFrom values 0 s

-- A name without a value keeps its placeholder.
def valueOf (pairs : List Pair) (name : Str) : Str :=
  match pairs.find? fun pair => pair.placeholder.name = name with
  | some pair => pair.value
  | none => '{' :: name ++ ['}']

end MesosPoc.Performance
