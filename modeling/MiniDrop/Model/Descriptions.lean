import MiniDrop.Library.Characters
import MiniDrop.Library.Scan
import MiniDrop.Model.NaturalLanguage

/-! # Texts as descriptions

A text is searched in lower case and without surrounding white space. Its numbers are what regular
expressions find: the digits of a number are as many as the expression allows, since none of them
goes on where there is another digit. -/

namespace Go

/-- `unicode.ToLower`, for letters whose lower case is in ASCII. No keyword has another letter with
an upper case. -/
def lowerRune (c : Char) : Char :=
  if c.isUpper then c.toLower
  else if c.toNat = 0x130 then 'i'
  else if c.toNat = 0x212A then 'k'
  else c

end Go

namespace MiniDrop

/-- `strings.ToLower(strings.TrimSpace(text))`. -/
def lowered (text : String) : List Char := (Go.trimSpace text.toList).map Go.lowerRune

/-- `strings.Contains(lower, needle)`; needles are in lower case. -/
def mentionsIn (text needle : String) : Bool := needle.toList <:+: lowered text

/-! ## Parts of the expressions -/

/-- `\s`. -/
def isRegexSpace (c : Char) : Bool := c ∈ ['\t', '\n', '\x0c', '\r', ' ']

def skipSpace (s : List Char) : List Char := s.dropWhile isRegexSpace

/-- `\w`. -/
def isWordChar (c : Char) : Bool := c.isAlphanum || c = '_'

/-- `\b` between a character of a word and what follows. -/
def endsWord (after : List Char) : Bool := !after.head?.any isWordChar

/-- The letter of an expression under `(?i)`, in a text in lower case. -/
def foldsTo (letter c : Char) : Bool := c = letter || (letter = 's' && c = 'ſ')

/-- The rest of the text that begins with the word. -/
def dropWord : List Char → List Char → Option (List Char)
  | [], s => some s
  | letter :: word, c :: cs => if foldsTo letter c then dropWord word cs else none
  | _ :: _, [] => none

/-- `(a|b|...)`: the first alternative with which the text begins, and the rest. -/
def firstOf (words : List String) (s : List Char) : Option (String × List Char) :=
  words.findSome? fun word => (dropWord word.toList s).map fun rest => (word, rest)

/-- `(\d{1,most})`: the digits, and the rest. -/
def digitsAt (most : ℕ) (s : List Char) : Option (List Char × List Char) :=
  let digits := (s.take most).takeWhile Char.isDigit
  if digits = [] then none else some (digits, s.drop digits.length)

/-- A number that is read, with the rest of the text from its end on. -/
structure Reading where
  value : ℕ
  after : List Char
deriving DecidableEq

/-- `strconv.Atoi` of the digits; there are ten of them at most. -/
def digitsValue (digits : List Char) : ℕ := Nat.ofDigitChars 10 digits 0

/-! ## Numbers with a unit -/

/-- `(\d{1,4})\s*(unit)`. -/
def numberWithUnit (units : List String) : Scan.Matcher Char (Reading × String) := fun _ s => do
  let (digits, after) ← digitsAt 4 s
  let (unit, rest) ← firstOf units (skipSpace after)
  some ((⟨digitsValue digits, after⟩, unit), rest)

def timeUnits : List String :=
  ["秒", "s", "sec", "secs", "second", "seconds", "分钟", "分", "min", "mins", "minute", "minutes",
    "小时", "h", "hour", "hours"]

/-- The seconds of the unit that was found. -/
def secondsPer (unit : String) : ℕ :=
  if unit = "分钟" || unit = "分" || "min".toList <+: unit.toList || "minute".toList <+: unit.toList
  then 60
  else if unit = "小时" || unit = "h" || "hour".toList <+: unit.toList then 3600
  else 1

/-- parseNaturalSeconds: the first number that is positive, in seconds. -/
def naturalSeconds (text : List Char) : Option Reading :=
  ((Scan.findAll (numberWithUnit timeUnits) none 0 text).find? fun m => 0 < m.1.value).map
    fun m => { m.1 with value := m.1.value * secondsPer m.2 }

/-- parseNaturalHz: the first number, also when it is 0. -/
def naturalHz (text : List Char) : Option Reading :=
  (Scan.findAll (numberWithUnit ["hz", "赫兹"]) none 0 text).head?.map Prod.fst

/-! ## Process ids -/

/-- An expression for a number behind a word. -/
structure PidPattern where
  word : String
  /-- `\b` before the word and after the digits. -/
  bounded : Bool := true
  /-- `[:=]?\s*` between the blanks and the digits. -/
  colon : Bool := false
  /-- `\s+` after the word, not `\s*`. -/
  blank : Bool := false

namespace PidPattern

/-- `\s*` or `\s+`, and perhaps `[:=]?\s*`. -/
def skip (p : PidPattern) (s : List Char) : Option (List Char) :=
  if p.blank && !s.head?.any isRegexSpace then none
  else if p.colon then
    match skipSpace s with
    | ':' :: rest => some (skipSpace rest)
    | '=' :: rest => some (skipSpace rest)
    | rest => some rest
  else some (skipSpace s)

def matchAt (p : PidPattern) : Scan.Matcher Char Reading := fun prev s => do
  guard (!p.bounded || !prev.any isWordChar)
  let behind ← dropWord p.word.toList s
  let (digits, after) ← digitsAt 10 (← p.skip behind)
  guard (!p.bounded || endsWord after)
  some (⟨digitsValue digits, after⟩, after)

def pid : PidPattern := { word := "pid", colon := true }

def process : PidPattern := { word := "process", blank := true }

def chinese : PidPattern := { word := "进程", bounded := false }

end PidPattern

/-- parseNaturalPID, without the conversion to `int32`: the first number behind a word, for the first
word for which it is positive. -/
def naturalPID (text : List Char) : Option Reading :=
  [PidPattern.pid, .process, .chinese].findSome? fun p =>
    (Scan.findAll p.matchAt none 0 text).head?.filter fun m => 0 < m.value

/-- What the expressions find in the text, with the address that another one finds. -/
def Description.ofText (ip text : String) : Description where
  ip := ip
  pid := ((naturalPID (lowered text)).map Reading.value).getD 0
  seconds := ((naturalSeconds (lowered text)).map Reading.value).getD 0
  hz := ((naturalHz (lowered text)).map Reading.value).getD 0
  mentions := mentionsIn text

end MiniDrop
