import MiniDrop.Library.Program
import MiniDrop.Model.HotmethodService

/-! # The database of the API server

A statement of the API server is one atomic step on these tables. Times are clock readings in
nanoseconds. -/

namespace MiniDrop

/-- A scalar in the JSON object `request_params`. -/
inductive ParamValue where
  | number (value : ℤ)
  | text (value : String)
  | flag (value : Bool)
deriving DecidableEq

abbrev RequestParams := List (String × ParamValue)

structure HotmethodTask where
  tid : String
  name : String := ""
  type : ℤ := 0
  profilerType : ℤ := 0
  targetIp : String := ""
  requestParams : RequestParams := []
  status : ℤ := 0
  analysisStatus : ℤ := 0
  statusInfo : String := ""
  uid : String := ""
  userName : String := ""
  createTime : ℤ := 0
  beginTime : Option ℤ := none
  endTime : Option ℤ := none
  masterTaskTid : String := ""
  /-- Soft deletion hides a row from every query, not from the unique index. -/
  deleted : Bool := false
deriving DecidableEq

structure TaskStateHistory where
  tid : String
  fromState : ℤ
  toState : ℤ
  reason : String
  changeType : ℤ
deriving DecidableEq

structure AgentInfo where
  ipAddr : String
  uid : String := ""
  gid : ℕ := 0
  id : ℕ := 0
  hostname : String := ""
  online : Bool := false
  version : String := ""
  environment : String := ""
  lastHeartbeat : ℤ := 0
deriving DecidableEq

structure AgentStateHistory where
  ipAddr : String
  hostname : String
  fromState : Bool
  toState : Bool
  reason : String
deriving DecidableEq

structure Group where
  gid : ℕ
  name : String
  ownerId : String
  deleted : Bool := false
deriving DecidableEq

structure GroupMember where
  gid : ℕ
  uid : String
deriving DecidableEq

structure ContinuousWindow where
  parentTid : String
  windowTid : String
  seq : ℤ
  startTime : ℤ
  endTime : ℤ
  status : ℤ
  cosKey : String
deriving DecidableEq

/-- `hotmethod_task` and `continuous_window` are keyed by their unique indexes, `groups` by its
primary key; agents stand in the order of their ids. -/
structure Database where
  tasks : StdMap HotmethodTask := ∅
  history : List TaskStateHistory := []
  agents : List AgentInfo := []
  members : List GroupMember := []
  windows : StdMap ContinuousWindow := ∅
  groups : Std.ExtTreeMap ℕ Group := ∅
  agentHistory : List AgentStateHistory := []

/-! ## Constants -/

def taskStatusNew : ℤ := 0
def taskStatusDispatched : ℤ := 1
def taskStatusRunning : ℤ := 2
def taskStatusUploading : ℤ := 3
def taskStatusSuccess : ℤ := 4
def taskStatusFailed : ℤ := 5
def taskStatusTimeout : ℤ := 6

def analysisStatusPending : ℤ := 0
def analysisStatusRunning : ℤ := 1
def analysisStatusSuccess : ℤ := 2
def analysisStatusFailed : ℤ := 3

def changeTypeTask : ℤ := 0
def changeTypeAnalysis : ℤ := 1

/-! ## Rows -/

namespace Database

variable (db : Database)

/-- The row that `First` finds. -/
def task? (tid : String) : Option HotmethodTask := (db.tasks[tid]?).filter fun row => !row.deleted

/-- INSERT into `hotmethod_task`; the unique index refuses a known tid. -/
def createTask (task : HotmethodTask) : Option Database :=
  if task.tid ∈ db.tasks then none
  else some { db with tasks := db.tasks.insert task.tid task }

/-- UPDATE of the row that a query with this tid would find. -/
def updateTask (tid : String) (change : HotmethodTask → HotmethodTask) : Database :=
  match db.task? tid with
  | none => db
  | some row => { db with tasks := db.tasks.insert tid (change row) }

/-- INSERT into `task_state_history`. -/
def addHistory (row : TaskStateHistory) : Database := { db with history := db.history ++ [row] }

/-- Ids of the groups of a user. -/
def groupsOf (uid : String) : List ℕ :=
  (db.members.filter fun member => member.uid = uid).map GroupMember.gid

/-- The history of the task status of `tid`, oldest row first. -/
def taskRows (tid : String) : List TaskStateHistory :=
  db.history.filter fun row => row.tid = tid && row.changeType = changeTypeTask

end Database

/-! ## Statements -/

/-- What a statement does about an agent that was looked up by its address. -/
structure AgentMark where
  ip : String
  /-- The flag `online` that was read; none where there was no row. -/
  saw : Option Bool
  /-- It records a change of the flag. -/
  audits : Bool := false
  /-- It makes the change that was recorded before. -/
  audited : Bool := false
deriving DecidableEq

/-- What a statement means for the status of a task and its history, or for groups and agents. -/
structure Mark where
  tid : Option String := none
  /-- It writes the status. -/
  writes : Bool := false
  /-- A later write of the operation depends on the status here. -/
  holds : Bool := false
  /-- The operation goes on as if the write had taken place when it fails. -/
  unchecked : Bool := false
  /-- The status changes and no history row follows. -/
  unrecorded : Bool := false
  /-- It writes the analysis status of a task that was read with this one. -/
  decided : Option ℤ := none
  /-- It replaces the status text without regard to what it is. -/
  overwrites : Bool := false
  /-- The group that it adds a member to. -/
  joins : Option ℕ := none
  /-- The group that it deletes. -/
  dissolves : Option ℕ := none
  /-- The group that it stores with an agent. -/
  assigns : Option ℕ := none
  agent : Option AgentMark := none
deriving DecidableEq

/-- What a call to drop_server comes to that answers with a code and a message. -/
inductive RpcReply where
  | notConnected
  | failed (error : String)
  | answered (code : ℤ) (message : String)
deriving DecidableEq

/-- The operations of the API server, as programs over its database. -/
abbrev Statements := Program Mark Database

/-- Why a query has no row. -/
inductive DbError where
  | recordNotFound
  | failure
deriving DecidableEq

/-- `First` on `hotmethod_task`; `holds` where a later write depends on the status. -/
def firstTask (tid : String) (holds : Bool) : Statements (Except DbError HotmethodTask) := do
  match ← Program.query { tid, holds } fun db => db.task? tid with
  | none => pure (.error .failure)
  | some none => pure (.error .recordNotFound)
  | some (some task) => pure (.ok task)

/-- recordStateChange only logs a failure. -/
def recordStateChange (tid : String) (fromState toState : ℤ) (reason : String)
    (changeType : ℤ) (holds : Bool) : Statements Unit := do
  let _ ← Program.update { tid, holds, unchecked := true } fun db =>
    some (db.addHistory { tid, fromState, toState, reason, changeType })

/-- The user owns the task, or shares a group with the owner. -/
def mayAccess (mark : Mark) (uid : String) (task : HotmethodTask) : Statements Bool := do
  if task.uid = uid then pure true
  else
    -- a failed query counts as no group, a failed count as no member
    let gids := (← Program.query mark fun db => db.groupsOf uid).getD []
    if gids = [] then pure false
    else
      let count := (← Program.query mark fun db =>
        (db.members.filter fun member =>
          member.uid = task.uid && gids.contains member.gid).length).getD 0
      pure (decide (count > 0))

def checkTaskAccess (uid tid : String) (holds : Bool) : Statements (Option HotmethodTask) := do
  match ← firstTask tid holds with
  | .error _ => pure none
  | .ok task => if ← mayAccess { tid, holds } uid task then pure (some task) else pure none

/-- canAccessAgentIP. -/
def canAccessAgentIP (uid ip : String) : Statements Bool := do
  if ip = "" then pure false
  else
    let gids := (← Program.query {} fun db => db.groupsOf uid).getD []
    let count := (← Program.query {} fun db =>
      (db.agents.filter fun agent => agent.ipAddr = ip &&
        (agent.uid = uid || agent.gid = 0 || gids.contains agent.gid)).length).getD 0
    pure (decide (count > 0))

end MiniDrop
