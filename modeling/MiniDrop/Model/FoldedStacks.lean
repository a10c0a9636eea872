import MiniDrop.Library.Characters
import MiniDrop.Library.Dict
import MiniDrop.Library.Numerals
import MiniDrop.Model.HotmethodService

/-! # Folded stacks

Each line of a collapsed file is a stack of frames and a count. The API server reads them in Go, the
analysis in Python, and the flame graph of the web page in TypeScript. -/

namespace MiniDrop

/-- Arithmetic of `int64` wraps around. -/
def int64 (n : ℤ) : ℤ := n.bmod 18446744073709551616

def splitLines (text : String) : List (List Char) := text.toList.splitOn '\n'

/-- The frames of a stack. -/
def framesOf (stack : List Char) : List String := (stack.splitOn ';').map String.ofList

/-- What is before and after the last space, unless the line begins with it. -/
def cutLastSpace (line : List Char) : Option (List Char × List Char) :=
  (Text.rfind [' '] line).bind fun lastSpace =>
    if lastSpace = 0 then none else some (line.take lastSpace, line.drop (lastSpace + 1))

/-! ## The API server -/

/-- The digits at the front, in `int64`. -/
def leadingInt64 (s : List Char) : ℤ :=
  (s.takeWhile Char.isDigit).foldl (fun n c => int64 (n * 10 + (c.toNat - '0'.toNat : ℕ))) 0

def parseInt64 (s : List Char) : ℤ :=
  match Go.trimSpace s with
  | '-' :: ds => int64 (-leadingInt64 ds)
  | ds => leadingInt64 ds

/-- Body of the loop of parseFoldedStacks, as far as it concerns one line. -/
def foldedLine (line : List Char) : Option (String × ℤ) :=
  (cutLastSpace (Go.trimSpace line)).bind fun (stack, count) =>
    if parseInt64 count > 0 then some (String.ofList stack, parseInt64 count) else none

/-- `stacks[stack] += count`. -/
def addCount (counts : StdMap ℤ) (entry : String × ℤ) : StdMap ℤ :=
  counts.insert entry.1 (int64 ((counts[entry.1]?).getD 0 + entry.2))

def parseFoldedStacks (text : String) : StdMap ℤ :=
  ((splitLines text).filterMap foldedLine).foldl addCount ∅

/-! ## The analysis -/

/-- Body of the loop of parse_collapsed, as far as it concerns one line. -/
def collapsedLine (line : List Char) : Option (String × ℤ) :=
  if Python.strip line = [] then none
  else
    (Python.rsplit line).bind fun (stack, count) =>
      (Python.int? count).map fun n => (String.ofList stack, n)

def parseCollapsed (text : String) : Dict String ℤ :=
  .ofList (((Python.strip text.toList).splitOn '\n').filterMap collapsedLine)

/-- Body of the loop of stacks_to_collapsed. -/
def printedLine (entry : String × ℤ) : Option (List Char) :=
  (Python.str? entry.2).map fun count => entry.1.toList ++ ' ' :: count

/-- The text of these entries; `none` where a count is not printed. -/
def collapsedText (entries : List (String × ℤ)) : Option String :=
  (entries.mapM printedLine).map fun lines => String.ofList (['\n'].intercalate lines ++ ['\n'])

def stacksToCollapsed (counts : Dict String ℤ) : Option String :=
  collapsedText (counts.entries.mergeSort fun a b => -a.2 ≤ -b.2)

/-! ## The flame graph -/

/-- A node without `children` has none; values are doubles, all of them natural numbers. -/
inductive FlameNode where
  | mk (name : String) (value : ℕ) (children : List FlameNode)

namespace FlameNode

def name : FlameNode → String
  | mk name _ _ => name

def value : FlameNode → ℕ
  | mk _ value _ => value

def children : FlameNode → List FlameNode
  | mk _ _ children => children

/-- Goes down along the frames, with new nodes where there are none, and adds the count to the
last. -/
def addCount (count : ℕ) : List String → FlameNode → FlameNode
  | [], mk name value children => mk name (JavaScript.double (value + count)) children
  | frame :: frames, mk name value children =>
    match children.findIdx? fun child => child.name = frame with
    | some i => mk name value (children.modify i (addCount count frames))
    | none => mk name value (children ++ [addCount count frames (mk frame 0 [])])

/-- The node reached by the frames. -/
def at? : List String → FlameNode → Option FlameNode
  | [], node => some node
  | frame :: frames, node =>
    (node.children.find? fun child => child.name = frame).bind (at? frames)

end FlameNode

/-- Body of the loop of parseCollapsedToTree, as far as it concerns one line. -/
def treeLine (line : List Char) : Option (List String × ℕ) :=
  (cutLastSpace (JavaScript.trim line)).bind fun (stack, count) =>
    (JavaScript.parseInt count).bind fun count =>
      if count ≤ 0 then none else some (framesOf stack, count.toNat)

/-- `null` where no line counts. -/
def parseCollapsedToTree (text : String) : Option FlameNode :=
  let root := ((splitLines text).filterMap treeLine).foldl
    (fun root entry => root.addCount entry.2 entry.1) (.mk "all" 0 [])
  if root.children.isEmpty then none else some root

end MiniDrop
