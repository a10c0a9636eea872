import MiniDrop.Model.Agent
import MiniDrop.Model.Watch

/-! # drop_server, its agents and the loop that waits for one task

Messages on the network arrive in any order and at any time, or never. All events read one wall
clock that never goes back; the steady clock of drop_server is read separately. -/

namespace MiniDrop

inductive Message where
  /-- The answer to a heartbeat brings a task to the agent at `ip`. -/
  | dispatch (ip : String) (task : TaskDesc)
  | report (report : Report)
deriving DecidableEq

structure Cluster where
  service : HotmethodService := {}
  agents : StdMap Agent := ∅
  network : List Message := []
  watch : Watch
  /-- The last reading of the wall clock. -/
  now : ℤ := 0
  /-- A successful result of the task reached drop_server before the deadline. -/
  arrived : Bool := false

inductive ClusterAction where
  /-- A call of another client, or a pass of the cleanup thread. -/
  | call (event : Event)
  | heartbeat (steadyNow : ℤ) (ip : String)
  | agent (ip : String) (action : AgentAction)
  | deliver (steadyNow sysNow : ℤ) (message : Message)
  | watch (action : WatchAction)
deriving DecidableEq

structure ClusterEvent where
  now : ℤ
  action : ClusterAction
deriving DecidableEq

/-- Tasks are popped by heartbeats and reported by agents, and no two tasks have one id, so other
calls do not name the task. -/
def Call.Foreign (tid : String) : Call → Prop
  | .pushTask _ task => task.taskId ≠ tid
  | .popTask _ => False
  | .updateTaskStatus request => request.taskId ≠ tid
  | .notifyResult _ request => request.taskId ≠ tid
  | _ => True

instance (tid : String) (call : Call) : Decidable (call.Foreign tid) := by
  unfold Call.Foreign
  refine call.casesOn ?_ ?_ ?_ ?_ ?_ ?_ ?_ <;> intros <;> dsimp only <;> infer_instance

/-- The report is a successful result of the task. -/
def Report.Succeeds (tid : String) : Report → Prop
  | .status _ => False
  | .result r => r.taskId = tid ∧ r.errorMessage = ""

instance (tid : String) (report : Report) : Decidable (report.Succeeds tid) := by
  cases report <;> simp only [Report.Succeeds] <;> infer_instance

namespace Cluster

def agent (c : Cluster) (ip : String) : Agent := (c.agents[ip]?).getD {}

/-- HealthCheckService::Do, as far as it concerns tasks. -/
def heartbeat (c : Cluster) (steadyNow : ℤ) (ip : String) : Cluster :=
  let popped := c.service.popTask steadyNow ip
  { c with
    service := popped.1
    network := c.network ++ popped.2.toList.map (.dispatch ip) }

/-- drop_server handles the RPC. -/
def receive (c : Cluster) (steadyNow sysNow : ℤ) : Report → Option Cluster
  | .status update => some { c with service := c.service.updateTaskStatusRpc steadyNow update }
  | .result result =>
    (c.service.notifyResult steadyNow sysNow result).map fun service => { c with service }

/-- The message, no longer on the network, is handled. -/
def deliver (tid : String) (deadline : ℤ) (c : Cluster) (steadyNow sysNow : ℤ) :
    Message → Option Cluster
  | .dispatch ip task =>
    some { c with agents := c.agents.insert ip ((c.agent ip).pushTask task) }
  | .report report =>
    (c.receive steadyNow sysNow report).map fun c =>
      { c with arrived := c.arrived || decide (report.Succeeds tid ∧ c.now ≤ deadline) }

/-- One event, where `tid` is the task that the loop waits for until `deadline`. -/
def step (tid : String) (deadline : ℤ) (c : Cluster) (e : ClusterEvent) : Option Cluster :=
  if e.now < c.now then none
  else
    let c := { c with now := e.now }
    match e.action with
    | .call event =>
      if event.call.Foreign tid then
        (c.service.step event).map fun service => { c with service }
      else none
    | .heartbeat steadyNow ip => some (c.heartbeat steadyNow ip)
    | .agent ip action =>
      ((c.agent ip).step action).map fun (agent, reports) =>
        { c with
          agents := c.agents.insert ip agent
          network := c.network ++ reports.map .report }
    | .deliver steadyNow sysNow message =>
      if message ∈ c.network then
        { c with network := c.network.erase message }.deliver tid deadline steadyNow sysNow message
      else none
    | .watch action =>
      (c.watch.step tid deadline c.service c.now action).map fun watch => { c with watch }

end Cluster

end MiniDrop
