import MiniDrop.Library.Json
import MiniDrop.Model.PerfScript

/-! # Listings of go tool pprof

A listing has a row for each function. Times are read in seconds and sizes in bytes, both as exact
numbers. -/

namespace Python

/-- `int` of a number. -/
def truncate (q : ℚ) : ℤ := q.num.tdiv q.den

end Python

namespace MiniDrop

inductive PprofError where
  /-- `could not convert string to float: {text!r}` -/
  | notANumber (text : List Char)
  /-- `missing flat time unit in line: {line!r}` -/
  | missingFlatUnit (line : List Char)
  /-- `missing cumulative time unit in line: {line!r}` -/
  | missingCumulativeUnit (line : List Char)
  /-- `unknown time unit: {unit!r}` -/
  | unknownUnit (unit : List Char)
  /-- `unknown time unit: {unit!r} in line: {line!r}` -/
  | unknownUnitIn (unit line : List Char)
  /-- `malformed pprof line: {line!r}` -/
  | malformed (line : List Char)
deriving DecidableEq

namespace Pprof

def float (s : List Char) : Except PprofError ℚ :=
  match Python.rational? s with
  | some x => .ok x
  | none => .error (.notANumber s)

/-- Lines that belong to no row. -/
def isHeading (line : List Char) : Bool :=
  line = [] || ['f', 'l', 'a', 't'].isPrefixOf line || ['-'].isPrefixOf line

/-! ## Patterns -/

/-- `[\d.]+%\s+`. -/
def percentage : Regex := .cat [.plus isTimeChar, .char '%', .plus Python.isSpace]

/-- `([\d.]+)%\s+`. -/
def percentageGroup : Regex :=
  .cat [.group (.plus isTimeChar), .char '%', .plus Python.isSpace]

/-- `(.+)$`. -/
def remainder : Regex := .cat [.group (.plus Regex.dot), .atEnd]

def timeUnits : List (List Char) := [['m', 's'], ['s'], ['u', 's'], ['m'], ['h']]

/-- `([\d.]+)(ms|s|us|m|h)\s+`. -/
def time : Regex :=
  .cat [.group (.plus isTimeChar), .group (.oneOf timeUnits), .plus Python.isSpace]

/-- `([\d.]+)(ms|s|us|m|h)?\s+`; a group that takes no part is empty here. -/
def optionalTime : Regex :=
  .cat [.group (.plus isTimeChar), .group (.opt (.oneOf timeUnits)), .plus Python.isSpace]

def fullTimes : Regex :=
  .cat [optionalTime, percentage, percentage, optionalTime, percentage, remainder]

/-- Without the cumulative columns. -/
def simpleTimes1 : Regex := .cat [time, percentage, percentage, remainder]

/-- Without the sum of the percentages as well. -/
def simpleTimes2 : Regex := .cat [time, percentage, remainder]

def timePatterns : List Regex := [fullTimes, simpleTimes1, simpleTimes2]

/-- `[\d,.]`. -/
def isSizeChar (c : Char) : Bool := isTimeChar c || c = ','

def sizeUnits : List (List Char) := [['B'], ['K', 'B'], ['M', 'B'], ['G', 'B'], ['T', 'B']]

/-- `([\d,.]+)(B|KB|MB|GB|TB)?\s+`. -/
def optionalSize : Regex :=
  .cat [.group (.plus isSizeChar), .group (.opt (.oneOf sizeUnits)), .plus Python.isSpace]

def fullSizes : Regex :=
  .cat [optionalSize, percentageGroup, percentage, optionalSize, percentageGroup, remainder]

/-- Without the sum of the percentages. -/
def simpleSizes : Regex :=
  .cat [optionalSize, percentageGroup, optionalSize, percentageGroup, remainder]

def sizePatterns : List Regex := [fullSizes, simpleSizes]

/-! ## Times -/

def secondMultipliers : List (List Char × ℚ) :=
  [(['u', 's'], 1 / 1000000), (['m', 's'], 1 / 1000), (['s'], 1), (['m'], 60), (['h'], 3600)]

def toSeconds (value : ℚ) (unit : List Char) : Except PprofError ℚ :=
  match secondMultipliers.lookup unit with
  | some multiplier => .ok (value * multiplier)
  | none => .error (.unknownUnit unit)

/-- `[a-zA-Z]`. -/
def isLetter (c : Char) : Bool := ('a' ≤ c && c ≤ 'z') || ('A' ≤ c && c ≤ 'Z')

/-- A line that begins like a number and matches no pattern. -/
def refuseLine (line : List Char) : PprofError :=
  let unit := ((line.dropWhile isTimeChar).takeWhile isLetter).map Char.toLower
  if unit ≠ [] && !timeUnits.contains unit then .unknownUnitIn unit line else .malformed line

/-- The function of a line, and its time. -/
def readTime (line : List Char) : Except PprofError (Option (List Char × ℚ)) :=
  if isHeading line then .ok none
  else
    match fullTimes.groups? line with
    | some [flat, unit, cum, cumUnit, func] => do
      let value ← float flat
      if unit = [] ∧ value ≠ 0 then throw (.missingFlatUnit line)
      if cumUnit = [] then
        if (← float cum) ≠ 0 then throw (.missingCumulativeUnit line)
      let seconds ← toSeconds value (if unit = [] then ['s'] else unit)
      pure (some (Python.strip func, seconds))
    | _ =>
      match (simpleTimes1.groups? line).orElse fun _ => simpleTimes2.groups? line with
      | some [flat, unit, func] => do
        let seconds ← toSeconds (← float flat) unit
        pure (some (Python.strip func, seconds))
      | _ => if line.head?.any isTimeChar then .error (refuseLine line) else .ok none

/-- Body of the loop of parse_pprof_text. -/
def timeLine (samples : Dict (List Char) ℚ) (line : List Char) :
    Except PprofError (Dict (List Char) ℚ) := do
  match ← readTime (Python.strip line) with
  | some (func, seconds) => pure (samples.set func seconds)
  | none => pure samples

end Pprof

def parsePprofText (text : List Char) : Except PprofError (Dict (List Char) ℚ) :=
  ((Python.strip text).splitOn '\n').foldlM Pprof.timeLine (.ofList [])

/-! ## Sizes -/

structure HeapSample where
  func : List Char
  flatObjects : ℤ := 0
  flatSpace : ℤ
  cumObjects : ℤ := 0
  cumSpace : ℤ

namespace Pprof

def byteMultipliers : List (List Char × ℚ) :=
  [(['B'], 1), (['K', 'B'], 1024), (['M', 'B'], 1024 ^ 2), (['G', 'B'], 1024 ^ 3),
    (['T', 'B'], 1024 ^ 4)]

def toBytes (value : ℚ) (unit : List Char) : ℤ :=
  Python.truncate (value * (byteMultipliers.lookup unit).getD 1)

/-- A size whose thousands may be separated by commas. -/
def space (number unit : List Char) : Except PprofError ℤ :=
  (float (number.filter (· ≠ ','))).map fun value =>
    toBytes value (if unit = [] then ['B'] else unit)

def readSize (line : List Char) : Except PprofError (Option HeapSample) :=
  if isHeading line then .ok none
  else
    match (fullSizes.groups? line).orElse fun _ => simpleSizes.groups? line with
    | some [flat, unit, _, cum, cumUnit, _, func] => do
      let flatSpace ← space flat unit
      let cumSpace ← space cum cumUnit
      pure (some { func := Python.strip func, flatSpace, cumSpace })
    | _ => .ok none

/-- Body of the loop of parse_heap_text. -/
def sizeLine (samples : List HeapSample) (line : List Char) : Except PprofError (List HeapSample) :=
  (readSize (Python.strip line)).map fun sample => samples ++ sample.toList

end Pprof

def parseHeapText (text : List Char) : Except PprofError (List HeapSample) :=
  ((Python.strip text).splitOn '\n').foldlM Pprof.sizeLine []

end MiniDrop
