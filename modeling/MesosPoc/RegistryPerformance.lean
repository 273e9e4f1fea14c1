import MesosPoc.Shell

namespace MesosPoc.RegistryPerformance

-- docker-registry-performance/test.sh.

def label : Str := "\"img_push_ms".toList

-- /\"img_push_ms/p
def isLabelled (line : Str) : Bool :=
  line.tails.any label.isPrefixOf

-- How long the match of  *\"img_push_ms  is at the start of a text.
def labelLength (text : Str) : Option Nat :=
  let blanks := (text.takeWhile (· = ' ')).length
  if (label ++ [' ']).isPrefixOf (text.drop blanks) then some (blanks + (label.length + 1)) else none

-- s/ *\"img_push_ms //g, after the characters that are still to be skipped.
def removeLabels : Nat → Str → Str
  | _, [] => []
  | skip + 1, _ :: rest => removeLabels skip rest
  | 0, c :: rest =>
      match labelLength (c :: rest) with
      | some length => removeLabels (length - 1) rest
      | none => c :: removeLabels 0 rest

def isPunct (c : Char) : Bool :=
  ('!' ≤ c ∧ c ≤ '/') ∨ (':' ≤ c ∧ c ≤ '@') ∨ ('[' ≤ c ∧ c ≤ '\x60') ∨ ('{' ≤ c ∧ c ≤ '~')

-- s/[[:punct:]]//g
def removePunct (line : Str) : Str :=
  line.filter fun c => !isPunct c

-- What sort -n compares first. There is no sign or point left in a line.
def sortKey (line : Str) : Nat :=
  Nat.ofDigitChars 10 ((line.dropWhile Shell.isBlank).takeWhile Char.isDigit) 0

def textLe : Str → Str → Bool
  | [], _ => true
  | _ :: _, [] => false
  | a :: first, b :: second => a < b || (a = b && textLe first second)

-- Lines with the same number are compared as texts.
def sortNumeric (lines : List Str) : List Str :=
  lines.mergeSort fun first second =>
    sortKey first < sortKey second ∨ sortKey first = sortKey second ∧ textLe first second

structure Milliseconds where
  totalImageCount : Nat
  sortedMilliseconds : List Str

-- The words of msg have no pattern character and no line end left.
def getMillisecondsArrayFromMsgFile (msgTxt : List Str) : Milliseconds :=
  let msg := ['\n'].intercalate (((msgTxt.filter isLabelled).map (removeLabels 0)).map removePunct)
  let milliseconds := Shell.fields msg
  { totalImageCount := milliseconds.length
    sortedMilliseconds := sortNumeric milliseconds }

def percentIndex (milliseconds : Milliseconds) (percent : Nat) : Int :=
  (milliseconds.totalImageCount * percent : Int).tdiv 100 - 1

-- An element that is not there expands to no word.
def getTimeByPercent (milliseconds : Milliseconds) (percent : Nat) : Option Str :=
  let index := percentIndex milliseconds percent
  if 0 ≤ index then
    some ([' '].intercalate ((Nat.toDigits 10 percent ++ ['%']) :: "images pushed in".toList ::
      milliseconds.sortedMilliseconds[index.toNat]?.toList ++ ["milliseconds".toList]))
  else none

end MesosPoc.RegistryPerformance
