import MiniDrop.Library.Characters
import MiniDrop.Library.Dict
import MiniDrop.Library.Floats
import MiniDrop.Library.Regex

/-! # Output of perf script

Each sample has a line for the process and a line for each frame, and ends with an empty line. -/

namespace Python

/-- `str.rstrip`. -/
def rstrip (s : List Char) : List Char := s.rdropWhile isSpace

end Python

namespace MiniDrop

/-- `[0-9a-f]`. -/
def isLowerHex (c : Char) : Bool := c.isDigit || ('a' ≤ c && c ≤ 'f')

/-- `[0-9a-fA-F]`. -/
def isHex (c : Char) : Bool := isLowerHex c || ('A' ≤ c && c ≤ 'F')

/-- `[\d.]`. -/
def isTimeChar (c : Char) : Bool := Python.isDecimal c || c = '.'

theorem not_isSpace_of_isTimeChar {c : Char} (h : isTimeChar c = true) :
    Python.isSpace c = false := by
  rw [isTimeChar, Bool.or_eq_true, decide_eq_true_eq] at h
  rcases h with h | rfl
  · exact Python.not_isSpace_of_isDecimal h
  · decide

/-- `\s+\d+\s+[\d.]+:\s+`. -/
def stampPattern : Regex := .cat
  [.plus Python.isSpace, .plus Python.isDecimal, .plus Python.isSpace, .plus isTimeChar, .char ':',
    .plus Python.isSpace]

/-- `^(\S.*?)\s+\d+\s+[\d.]+:\s+`. -/
def headerPattern : Regex := .cat
  [.group (.cat [.one fun c => !Python.isSpace c, .few Regex.dot]), stampPattern]

/-- `(?:\s+\(.*\))?$`. -/
def closingPattern : Regex := .cat
  [.opt (.cat [.plus Python.isSpace, .char '(', .many Regex.dot, .char ')']), .atEnd]

/-- `^\s+[0-9a-f]+\s+(.+?)(?:\s+\(.*\))?$`. -/
def framePattern : Regex := .cat
  [.plus Python.isSpace, .plus isLowerHex, .plus Python.isSpace,
    .group (.plusFew Regex.dot), closingPattern]

/-- `\+0x[0-9a-fA-F]+$`. -/
def offsetPattern : Regex := .cat
  [.char '+', .char '0', .char 'x', .plus isHex, .atEnd]

/-- The variables of the loop. -/
structure PerfFold where
  counts : Dict String ℤ := {}
  stack : List (List Char) := []

/-- Counts the stack, if there is one. -/
def PerfFold.save (s : PerfFold) : Dict String ℤ :=
  if s.stack = [] then s.counts
  else s.counts.add (String.ofList ([';'].intercalate s.stack.reverse)) 1

/-- The process of a line for it. -/
def headerComm? (line : List Char) : Option (List Char) :=
  (headerPattern.groups? line).bind fun groups => groups.head?.map Python.strip

/-- The function of a line for a frame, unless it is not known. -/
def frameFunc? (line : List Char) : Option (List Char) :=
  (framePattern.groups? line).bind fun groups => groups.head?.bind fun func =>
    let func := offsetPattern.remove 0 (Python.strip func)
    if func ≠ [] ∧ func ≠ "[unknown]".toList then some func else none

/-- Body of the loop of parse_perf_script. -/
def perfLine (s : PerfFold) (line : List Char) : PerfFold :=
  let line := Python.rstrip line
  if Python.strip line = [] then { counts := s.save }
  else
    match headerComm? line with
    | some comm => { counts := s.save, stack := [comm] }
    | none =>
      match frameFunc? line with
      | some func => { s with stack := s.stack ++ [func] }
      | none => s

def parsePerfScript (text : List Char) : Dict String ℤ :=
  ((text.splitOn '\n').foldl perfLine {}).save

end MiniDrop
