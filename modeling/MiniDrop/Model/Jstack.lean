import MiniDrop.Library.Streams
import MiniDrop.Library.Text
import MiniDrop.Model.HotmethodService

/-! # Stacks of a Java process from the output of jstack -/

namespace MiniDrop

/-- What follows the first occurrence of a text. -/
def behindFirst (marker : List Char) : List Char → Option (List Char)
  | [] => if marker = [] then some [] else none
  | c :: s =>
    if marker <+: c :: s then some ((c :: s).drop marker.length) else behindFirst marker s

/-- The name in a line, which may be empty. -/
def frameOf? (line : List Char) : Option (List Char) :=
  (behindFirst ['\t', 'a', 't', ' '] line).map fun frame => frame.takeWhile (· ≠ '(')

/-- Counts a stack under its frames, the root first. -/
def countStack (collapsed : StdMap ℤ) (stack : List (List Char)) : StdMap ℤ :=
  if stack = [] then collapsed
  else
    let key := String.ofList ([';'].intercalate stack.reverse)
    collapsed.insert key (collapsed.getD key 0 + 1)

/-- The variables of the loop. -/
structure JstackLoop where
  collapsed : StdMap ℤ
  stack : List (List Char) := []
  inThread : Bool := false

/-- A line without its end. -/
def withoutEnd (line : List Char) : List Char := line.rdropWhile fun c => c = '\n' || c = '\r'

/-- One round of the loop; the buffer holds a text up to its first zero. -/
def JstackLoop.readLine (s : JstackLoop) (buffer : List Char) : JstackLoop :=
  let line := withoutEnd (buffer.takeWhile (· ≠ '\x00'))
  if line.head? = some '"' then
    { collapsed := countStack s.collapsed s.stack, stack := [], inThread := true }
  else if !s.inThread then s
  else if line = [] then
    { collapsed := countStack s.collapsed s.stack, stack := [], inThread := false }
  else
    match frameOf? line with
    | none => s
    | some frame => if frame = [] then s else { s with stack := s.stack ++ [frame] }

/-- One pass of the sampling loop. -/
def samplePass (collapsed : StdMap ℤ) (output : List Char) : StdMap ℤ :=
  let s := (Streams.fgetsAll 4096 output).foldl JstackLoop.readLine { collapsed }
  countStack s.collapsed s.stack

/-- A run of jstack: its output, and the answer of `pclose`, with the exit status where the process
exited. -/
structure JstackRun where
  output : List Char
  rc : ℤ
  exitStatus : Option ℤ

/-- The passes that the deadline and the number of samples leave time for; `none` where `popen`
fails. -/
def samplePasses (collapsed : StdMap ℤ) : List (Option JstackRun) → Except ℤ (StdMap ℤ)
  | [] => .ok collapsed
  | none :: _ => .error (-1)
  | some run :: runs =>
    let collapsed := samplePass collapsed run.output
    if run.rc ≠ 0 ∧ collapsed.isEmpty then .error (run.exitStatus.getD (-1))
    else samplePasses collapsed runs

/-- `AsyncProfiler::RecordWithJstack`: the text that it writes where the file opens, or the error
code. -/
def recordWithJstack (runs : List (Option JstackRun)) (opens : Bool) : Except ℤ (List Char) := do
  let collapsed ← samplePasses ∅ runs
  if collapsed.isEmpty then .error (-1)
  else if !opens then .error (-1)
  else
    .ok (collapsed.toList.flatMap fun item =>
      item.1.toList ++ ' ' :: (toString item.2).toList ++ ['\n'])

end MiniDrop
