import MiniDrop.Library.Runs
import MiniDrop.Model.HotmethodService
import Mathlib.Data.Rat.Defs

/-! # Heartbeats in drop_server

HotmethodService keeps the last heartbeat of each agent. An agent without a heartbeat for more than
30 seconds is offline from the next query on. These operations share the mutex of the service and
touch nothing else of it. -/

namespace MiniDrop

/-- Resource use of a process. -/
structure PidStats where
  pid : ℤ := 0
  cpuPercent : ℚ := 0
  rssKb : ℤ := 0
  readKbPerSec : ℤ := 0
  writeKbPerSec : ℤ := 0
deriving DecidableEq

namespace HealthCheck

/-- What an agent says of itself in a heartbeat. -/
structure Request where
  hostName : String
  ipAddr : String
  uid : String := ""
  agentVersion : String := "0.1.0"
  selfPstats : PidStats := {}
  childrenPstats : PidStats := {}
deriving DecidableEq

/-- The entry of an agent. -/
structure AgentStatus where
  request : Request
  lastHeartbeat : ℤ
  online : Bool := true
deriving DecidableEq

/-- Audit lines. -/
inductive AuditLine where
  | online (hostName ip : String)
  | offline (hostName ip : String) (elapsed : ℤ)
deriving DecidableEq

namespace AuditLine

def text : AuditLine → String
  | online hostName ip => "[AUDIT] Agent " ++ hostName ++ " (" ++ ip ++ ") 恢复上线"
  | offline hostName ip elapsed =>
    "[AUDIT] Agent " ++ hostName ++ " (" ++ ip ++ ") 离线，无心跳 " ++ toString elapsed ++ " 秒"

def ip : AuditLine → String
  | online _ ip => ip
  | offline _ ip _ => ip

def isOnline : AuditLine → Bool
  | online .. => true
  | offline .. => false

end AuditLine

/-- Seconds without a heartbeat that an agent may be silent. -/
def offlineAfterSec : ℤ := 30

/-- The agents, and the audit lines so far. -/
structure Registry where
  agents : StdMap AgentStatus := ∅
  audit : List AuditLine := []

/-- The entry is silent for too long. -/
def AgentStatus.silent (agent : AgentStatus) (now : ℤ) : Bool :=
  decide (elapsedSeconds now agent.lastHeartbeat > offlineAfterSec)

/-- The check for silence, with the lines that it writes. -/
def AgentStatus.check (agent : AgentStatus) (now : ℤ) (ip : String) :
    AgentStatus × List AuditLine :=
  if agent.silent now && agent.online then
    ({ agent with online := false },
      [.offline agent.request.hostName ip (elapsedSeconds now agent.lastHeartbeat)])
  else (agent, [])

namespace Registry

def updateAgentStatus (s : Registry) (now : ℤ) (request : Request) : Registry :=
  let wasOnline := (s.agents[request.ipAddr]?).any AgentStatus.online
  { agents := s.agents.insert request.ipAddr { request, lastHeartbeat := now }
    audit := s.audit ++ if wasOnline then [] else [.online request.hostName request.ipAddr] }

def getAgentStatus (s : Registry) (now : ℤ) (ip : String) : Registry × Option AgentStatus :=
  match s.agents[ip]? with
  | none => (s, none)
  | some agent =>
    let (agent, lines) := agent.check now ip
    ({ agents := s.agents.insert ip agent, audit := s.audit ++ lines }, some agent)

def getAllAgentStatus (s : Registry) (now : ℤ) : Registry × List AgentStatus :=
  ({ agents := s.agents.map fun ip agent => (agent.check now ip).1
     audit := s.audit ++ s.agents.toList.flatMap fun entry => (entry.2.check now entry.1).2 },
    s.agents.toList.map fun entry => (entry.2.check now entry.1).1)

def isAgentOnline (s : Registry) (now : ℤ) (ip : String) : Registry × Bool :=
  match s.agents[ip]? with
  | none => (s, false)
  | some agent =>
    if agent.silent now then
      let (agent, lines) := agent.check now ip
      ({ agents := s.agents.insert ip agent, audit := s.audit ++ lines }, false)
    else (s, true)

end Registry

/-! ## Calls -/

inductive Call where
  | heartbeat (request : Request)
  /-- StatAgent. -/
  | getAgentStatus (ip : String)
  /-- ListAgents and the cleanup thread. -/
  | getAllAgentStatus
  | isAgentOnline (ip : String)
deriving DecidableEq

inductive Answer where
  | done
  | agent (status : Option AgentStatus)
  | agents (statuses : List AgentStatus)
  | online (answer : Bool)
deriving DecidableEq

/-- A call, and the steady clock under the lock. -/
structure Event where
  now : ℤ
  call : Call
deriving DecidableEq

def Registry.handle (s : Registry) (e : Event) : Registry × Answer :=
  match e.call with
  | .heartbeat request => (s.updateAgentStatus e.now request, .done)
  | .getAgentStatus ip =>
    let (s, status) := s.getAgentStatus e.now ip
    (s, .agent status)
  | .getAllAgentStatus =>
    let (s, statuses) := s.getAllAgentStatus e.now
    (s, .agents statuses)
  | .isAgentOnline ip =>
    let (s, answer) := s.isAgentOnline e.now ip
    (s, .online answer)

/-- A run keeps its calls, the last one first. -/
structure Run where
  registry : Registry := {}
  history : List Event := []

/-- The steady clock never goes back. -/
def Run.step (s : Run) (e : Event) : Option Run :=
  if s.history.head?.any fun last => decide (e.now < last.now) then none
  else some { registry := (s.registry.handle e).1, history := e :: s.history }

end HealthCheck

end MiniDrop
