import MiniDrop.Model.Agent
import MiniDrop.Model.Backend

/-! # Durations and timeouts of a task

The duration of a request goes through the integer types of two languages: the worker of the agent
computes with `int`, and the loop that waits for the result with nanoseconds in `int64`. -/

namespace MiniDrop

/-! ## The agent -/

/-- An unsigned number as `int`, which has 32 bits. -/
def cppInt (n : ℕ) : ℤ := (n : ℤ).bmod 4294967296

/-- `timeout_sec` of WorkerLoop. -/
def workerTimeoutSec (task : TaskDesc) : ℤ :=
  if 0 < task.timeoutSec then cppInt task.timeoutSec.toNat else 60

/-- `duration_sec` of WorkerLoop, after the clamp. -/
def workerDurationSec (task : TaskDesc) : ℤ :=
  let timeoutSec := workerTimeoutSec task
  let durationSec := cppInt task.sampleArgv.duration.toNat
  if timeoutSec > 5 ∧ durationSec > timeoutSec - 5 then max 1 (timeoutSec - 5) else durationSec

/-! ## The API server -/

/-- Arithmetic of `time.Duration` wraps around. -/
def goDuration (n : ℤ) : ℤ := n.bmod 18446744073709551616

/-- `deadline` of waitTaskResult; `timeoutSec` is a `uint64`. -/
def pollDeadline (now timeoutSec : ℤ) : ℤ :=
  let timeoutSec := if timeoutSec = 0 then 120 else timeoutSec
  now + goDuration (goDuration timeoutSec * 1000000000)

/-- `timeoutSec` of the loop that createTaskInternal starts. -/
def CreateTaskReq.pollTimeoutSec (req : CreateTaskReq) : ℤ :=
  (req.duration + 60) % 18446744073709551616

end MiniDrop
