import Mathlib.Data.Int.Notation
import MiniDrop.Library.Runs

/-! # Programs with a time limit

The agent waits for the program that it starts, while a ProcessKiller looks at the clock in a thread
of its own. This is ScriptRunner::Execute after its fork; the profilers start their programs in the
same way. -/

namespace MiniDrop.ScriptRunner

/-- How a program has ended. -/
inductive ExitStatus where
  | exited (code : ℕ)
  | signaled
deriving DecidableEq

inductive Child where
  | running
  /-- It has ended, and nobody has waited for it. -/
  | zombie (status : ExitStatus)
  | reaped (status : ExitStatus)
deriving DecidableEq

/-- Where MonitorLoop stands. -/
inductive Monitor where
  | absent
  /-- Before the condition of the loop. -/
  | test
  | sleeping
  /-- Before it looks for the program. -/
  | probing
  /-- Behind the loop. -/
  | expired
  /-- Asleep after SIGTERM. -/
  | grace
  | finished
deriving DecidableEq

/-- Where the thread that called Execute stands. -/
inductive Parent where
  /-- In `waitpid`. -/
  | waiting
  | stopping (status : ExitStatus)
  | joining (status : ExitStatus)
  | returned (result : ℤ)
deriving DecidableEq

structure State where
  child : Child := .running
  monitor : Monitor
  parent : Parent := .waiting
  elapsed : ℕ := 0
  /-- `running_`. -/
  running : Bool := true
  /-- `timeout_`. -/
  timeout : Bool := false
  /-- SIGTERM went to the group of the program. -/
  terminated : Bool := false
  /-- SIGKILL as well. -/
  killed : Bool := false
deriving DecidableEq

/-- The result of Execute for a program that was not stopped. -/
def ExitStatus.result : ExitStatus → ℤ
  | exited code => code
  | signaled => -1

/-- `kill(pid, 0) == 0`. -/
def Child.found : Child → Bool
  | reaped _ => false
  | _ => true

/-- The program behind SIGKILL. -/
def Child.kill : Child → Child
  | running => .zombie .signaled
  | child => child

variable (timeoutSec : ℤ)

def start : State := { monitor := if timeoutSec > 0 then .test else .absent }

/-- The next step of MonitorLoop. -/
def State.stepMonitor (s : State) : Option State :=
  match s.monitor with
  | .test => some { s with
      monitor := if s.running && s.elapsed < timeoutSec then .sleeping else .expired }
  | .sleeping => some { s with monitor := .probing, elapsed := s.elapsed + 1 }
  | .probing => some { s with monitor := if s.child.found then .test else .finished }
  | .expired =>
    some (if s.running then { s with monitor := .grace, timeout := true, terminated := true }
      else { s with monitor := .finished })
  | .grace =>
    some (if s.child.found then
      { s with monitor := .finished, child := s.child.kill, killed := true }
    else { s with monitor := .finished })
  | .absent | .finished => none

/-- The next step of Execute. -/
def State.stepParent (s : State) : Option State :=
  match s.parent with
  | .waiting =>
    match s.child with
    | .zombie status => some { s with
        child := .reaped status
        parent := if s.monitor = .absent then .returned status.result else .stopping status }
    | _ => none
  | .stopping status => some { s with running := false, parent := .joining status }
  | .joining status =>
    if s.monitor = .finished then some { s with
      parent := .returned (if s.timeout then -2 else status.result) }
    else none
  | .returned _ => none

inductive Event where
  /-- The program ends, of itself or by a signal that reached it. -/
  | childExit (status : ExitStatus)
  | monitor
  | parent
deriving DecidableEq

def State.step (s : State) : Event → Option State
  | .childExit status =>
    match s.child with
    | .running => some { s with child := .zombie status }
    | _ => none
  | .monitor => s.stepMonitor timeoutSec
  | .parent => s.stepParent

end MiniDrop.ScriptRunner
