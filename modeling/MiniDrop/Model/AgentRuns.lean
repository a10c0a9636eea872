import MiniDrop.Library.Runs
import MiniDrop.Model.Agent

/-! # A run of the drop_agent process

Three threads share the task queue and `running_`: the heartbeat thread delivers tasks, the worker
thread executes them, and the main thread waits for a signal and then destroys the channels. -/

namespace MiniDrop

/-- Where HeartbeatLoop is. -/
inductive HeartbeatPoint where
  | top
  | calling
  /-- In the callback, before PushTask has the mutex. -/
  | pushing (task : TaskDesc)
  | left
deriving DecidableEq

/-- Where WorkerLoop is. -/
inductive WorkerPoint where
  | top
  /-- In `cv_.wait`, without the mutex. -/
  | waiting
  /-- Past `cv_.wait`, with the mutex. -/
  | holding
  | executing
  | left
deriving DecidableEq

/-- Where the main thread is. -/
inductive MainPoint where
  | serving
  /-- In ~HealthCheckChannel. -/
  | joiningHeartbeat
  /-- In ~HotmethodChannel. -/
  | joiningWorker
  | draining
  | stopped
deriving DecidableEq

inductive AgentEvent where
  /-- The heartbeat thread calls the callback with a task. -/
  | delivered (task : TaskDesc)
  | started (task : TaskDesc)
  /-- WorkerLoop reads `running_ = false`. -/
  | observedStop
  /-- WorkerLoop calls ReportResult. -/
  | reported (result : TaskResult)
  /-- ~HotmethodChannel calls ReportResult. -/
  | cancelled (result : TaskResult)
deriving DecidableEq

structure DropAgent where
  agent : Agent := {}
  heartbeat : HeartbeatPoint := .top
  worker : WorkerPoint := .top
  main : MainPoint := .serving
  log : List AgentEvent := []

inductive DropAgentAction where
  | signal
  | beat
  /-- The heartbeat returns, with a pending task or without. -/
  | answer (task : Option TaskDesc)
  | push
  | loop
  | wake
  | take
  | work (action : AgentAction)
  | report (copies : ℕ)
  | main
  | cancel (copies : ℕ)
deriving DecidableEq

/-- What WorkerLoop does with a task before it reports the result. -/
def AgentAction.executes : AgentAction → Bool
  | .reportRunning _ | .record _ | .reportUploading _ | .upload _ _ => true
  | _ => false

/-- The result for a task that was still in the queue. -/
def shutdownResult (task : TaskDesc) : TaskResult :=
  { taskId := task.taskId, errorMessage := "agent shutting down" }

namespace DropAgent

/-- HeartbeatLoop. A response may be on its way when the signal arrives. -/
def stepHeartbeat (p : DropAgent) : DropAgentAction → Option DropAgent
  | .beat =>
    if p.heartbeat = .top then
      some { p with heartbeat := if p.agent.running then .calling else .left }
    else none
  | .answer none => if p.heartbeat = .calling then some { p with heartbeat := .top } else none
  | .answer (some task) =>
    if p.heartbeat = .calling then
      some { p with heartbeat := .pushing task, log := p.log ++ [.delivered task] }
    else none
  | .push =>
    match p.heartbeat with
    | .pushing task =>
      if p.worker = .holding then none
      else some { p with heartbeat := .top, agent := p.agent.pushTask task }
    | _ => none
  | _ => none

/-- WorkerLoop. -/
def stepWorker (p : DropAgent) : DropAgentAction → Option DropAgent
  | .loop =>
    if p.worker = .top then
      if p.agent.running then some { p with worker := .waiting }
      else some { p with worker := .left, log := p.log ++ [.observedStop] }
    else none
  | .wake =>
    -- the predicate of `cv_.wait` only reads `running_` when the queue is empty
    if p.worker = .waiting then
      if p.agent.queue ≠ [] then some { p with worker := .holding }
      else if p.agent.running then none
      else some { p with worker := .holding, log := p.log ++ [.observedStop] }
    else none
  | .take =>
    if p.worker = .holding then
      if p.agent.running then do
        let task ← p.agent.queue.head?
        let (agent, _) ← p.agent.step .take
        some { p with agent, worker := .executing, log := p.log ++ [.started task] }
      else some { p with worker := .left, log := p.log ++ [.observedStop] }
    else none
  | .work action =>
    if p.worker = .executing ∧ action.executes then do
      let (agent, _) ← p.agent.step action
      some { p with agent }
    else none
  | .report copies =>
    match p.worker, p.agent.worker with
    | .executing, .finished result => do
      let (agent, _) ← p.agent.step (.reportResult copies)
      some { p with agent, worker := .top, log := p.log ++ [.reported result] }
    | _, _ => none
  | _ => none

/-- The main thread, and the signal handler. The channels are destroyed in the reverse order of
their construction. -/
def stepMain (p : DropAgent) : DropAgentAction → Option DropAgent
  | .signal => do
    let (agent, _) ← p.agent.step .stop
    some { p with agent }
  | .main =>
    match p.main with
    | .serving => if p.agent.running then none else some { p with main := .joiningHeartbeat }
    | .joiningHeartbeat =>
      if p.heartbeat = .left then some { p with main := .joiningWorker } else none
    | .joiningWorker => if p.worker = .left then some { p with main := .draining } else none
    | .draining => if p.agent.queue = [] then some { p with main := .stopped } else none
    | .stopped => none
  | .cancel copies =>
    if p.main = .draining then do
      let task ← p.agent.queue.head?
      let (agent, _) ← p.agent.step (.cancel copies)
      some { p with agent, log := p.log ++ [.cancelled (shutdownResult task)] }
    else none
  | _ => none

/-- One step of a thread. -/
def step (p : DropAgent) (action : DropAgentAction) : Option DropAgent :=
  match action with
  | .beat | .answer _ | .push => p.stepHeartbeat action
  | .loop | .wake | .take | .work _ | .report _ => p.stepWorker action
  | .signal | .main | .cancel _ => p.stepMain action

end DropAgent

end MiniDrop
