import MiniDrop.Model.Agent

/-! # The servers of drop_agent

Heartbeats and reports use separate channels. The heartbeat channel looks for another server after
three failures in a row; the channel for reports keeps the server that the process found at its
start. Whether a server can be reached is an argument for each attempt. -/

namespace MiniDrop

/-- `kMaxFailBeforeReconnect`. -/
def maxFailBeforeReconnect : ℕ := 3

/-- The first server that main connects to. -/
def connectFirst (connects : ℕ → Bool) : ℕ → List String → Option String
  | _, [] => none
  | attempt, addr :: addrs =>
    if connects attempt then some addr else connectFirst connects (attempt + 1) addrs

structure HealthCheckChannel where
  serverAddr : String
  serverAddrs : List String
  failCount : ℕ := 0

/-- What a heartbeat comes to: the answer, with a task if one is pending, or a failure, with the
servers that Reconnect reaches if it gets that far. -/
inductive HeartbeatReply where
  | answered (task : Option TaskDesc)
  | failed (connects : ℕ → Bool)

namespace HealthCheckChannel

/-- The loop of Reconnect over the addresses that are left, and the last attempt. -/
def reconnectFrom (c : HealthCheckChannel) (connects : ℕ → Bool) :
    ℕ → List String → HealthCheckChannel × Bool
  | attempt, [] => (c, connects attempt)
  | attempt, addr :: addrs =>
    if addr = c.serverAddr then c.reconnectFrom connects attempt addrs
    else if connects attempt then ({ c with serverAddr := addr }, true)
    else c.reconnectFrom connects (attempt + 1) addrs

def reconnect (c : HealthCheckChannel) (connects : ℕ → Bool) : HealthCheckChannel × Bool :=
  c.reconnectFrom connects 0 c.serverAddrs

/-- One pass of HeartbeatLoop. -/
def heartbeat (c : HealthCheckChannel) : HeartbeatReply → HealthCheckChannel
  | .answered _ => { c with failCount := 0 }
  | .failed connects =>
    let c := { c with failCount := c.failCount + 1 }
    if c.failCount ≥ maxFailBeforeReconnect then
      let (c, connected) := c.reconnect connects
      if connected then { c with failCount := 0 } else c
    else c

end HealthCheckChannel

/-- The process, with what becomes of its tasks: the servers that brought those in the queue and the
one at the worker, and the reports that were sent, each with its task's server and its own. -/
structure AgentProcess where
  health : HealthCheckChannel
  /-- The server of HotmethodChannel. -/
  serverAddr : String
  agent : Agent := {}
  origins : List String := []
  taken : String := ""
  sent : List (String × String × Report) := []

inductive ProcessEvent where
  | heartbeat (reply : HeartbeatReply)
  | worker (action : AgentAction)
  /-- The process dies and starts again. -/
  | restart (connects : ℕ → Bool)

namespace AgentProcess

/-- main, up to the start of the threads; `none` where no server is reached. -/
def start (serverAddrs : List String) (connects : ℕ → Bool) : Option AgentProcess :=
  (connectFirst connects 0 serverAddrs).map fun serverAddr =>
    { health := { serverAddr, serverAddrs }, serverAddr }

/-- The callback of the heartbeat channel. -/
def pushTask (p : AgentProcess) (task : TaskDesc) : AgentProcess :=
  { p with
    agent := p.agent.pushTask task
    origins :=
      if p.agent.queue.length ≥ Agent.maxTaskQueueSize then p.origins
      else p.origins ++ [p.health.serverAddr] }

/-- A step of the worker. A report is about the task at the worker, or, in a shutdown, about the
first task in the queue. -/
def work (p : AgentProcess) (action : AgentAction) : Option AgentProcess :=
  (p.agent.step action).map fun (agent, reports) =>
    let first := p.origins.headD ""
    match action with
    | .take => { p with agent, origins := p.origins.tail, taken := first }
    | .cancel _ =>
      { p with
        agent
        origins := p.origins.tail
        sent := p.sent ++ reports.map fun report => (first, p.serverAddr, report) }
    | _ =>
      { p with
        agent
        sent := p.sent ++ reports.map fun report => (p.taken, p.serverAddr, report) }

def step (p : AgentProcess) : ProcessEvent → Option AgentProcess
  | .heartbeat reply =>
    some (match reply with
      | .answered (some task) =>
        { p.pushTask task with health := p.health.heartbeat (.answered (some task)) }
      | reply => { p with health := p.health.heartbeat reply })
  | .worker action => if action = .crash then none else p.work action
  | .restart connects =>
    (start p.health.serverAddrs connects).map fun fresh => { fresh with sent := p.sent }

end AgentProcess

end MiniDrop
