import MiniDrop.Model.Requests

/-! # Users, groups and agents in the API server

Users see the tasks and agents of the groups that they are in. The owner of a group chooses its
members, and every request that lists agents first copies their rows from drop_server. -/

namespace MiniDrop

namespace Database

variable (db : Database)

/-- The group that a query finds. -/
def group? (gid : ℕ) : Option Group := (db.groups[gid]?).filter fun group => !group.deleted

/-- INSERT into `group_members`; the primary key refuses a known member. -/
def insertMember (member : GroupMember) : Option Database :=
  if member ∈ db.members then none else some { db with members := db.members ++ [member] }

/-- The new group with its owner as a member; the primary key refuses a known id. -/
def createGroup (group : Group) : Option Database :=
  if group.gid ∈ db.groups then none
  else
    { db with groups := db.groups.insert group.gid group }.insertMember ⟨group.gid, group.ownerId⟩

/-- The soft deletion of a group, and the deletion of its members. -/
def deleteGroup (gid : ℕ) : Database :=
  { db with
    groups := match db.group? gid with
      | none => db.groups
      | some group => db.groups.insert gid { group with deleted := true }
    members := db.members.filter fun member => member.gid ≠ gid }

def removeMember (gid : ℕ) (uid : String) : Database :=
  { db with members := db.members.filter fun member => member ≠ ⟨gid, uid⟩ }

/-- UPDATE of the agent with this id. -/
def updateAgent (id : ℕ) (change : AgentInfo → AgentInfo) : Database :=
  { db with agents := db.agents.map fun agent => if agent.id = id then change agent else agent }

/-- INSERT into `agent_info`, which assigns the next id. -/
def createAgent (agent : AgentInfo) : Database :=
  { db with
    agents := db.agents ++ [{ agent with id := (db.agents.map AgentInfo.id).foldl max 0 + 1 }] }

/-- The first agent with this address. -/
def agent? (ip : String) : Option AgentInfo := db.agents.find? fun agent => agent.ipAddr = ip

/-- The group that `First` finds for a user. -/
def firstGroup (uid : String) : Option ℕ := (db.groupsOf uid).min?

end Database

/-! ## Groups -/

def notGroupOwner : Answer := ⟨403, 4030001, "not group owner"⟩

/-- A response: an answer, or the status and code of an error whose message comes from a
library. -/
abbrev Response := Except (ℤ × ℤ) Answer

/-- `First` on `groups`. -/
def firstGroupRow (gid : ℕ) : Statements (Option Group) := do
  match ← Program.query {} fun db => db.group? gid with
  | none => pure none
  | some group => pure group

/-- CreateGroup; `gid` is the id that the table assigns. -/
def createGroup (gid : ℕ) (uid name : String) : Statements (Except (ℤ × ℤ) Group) := do
  if name = "" then pure (.error (400, 4000001))
  else
    let group : Group := { gid, name, ownerId := uid }
    if !(← Program.update {} fun db => db.createGroup group) then pure (.error (500, 5000001))
    else pure (.ok group)

def deleteGroup (uid : String) (gid : ℕ) : Statements Response := do
  match ← firstGroupRow gid with
  | none => pure (.ok ⟨404, 4040001, "group not found"⟩)
  | some group =>
    if group.ownerId ≠ uid then pure (.ok notGroupOwner)
    else if !(← Program.update { dissolves := some gid } fun db => some (db.deleteGroup gid)) then
      pure (.error (500, 5000001))
    else pure (.ok ⟨200, 0, "deleted"⟩)

/-- The group, if the user owns it. -/
def ownedGroup (uid : String) (gid : ℕ) : Statements (Option Group) := do
  match ← firstGroupRow gid with
  | none => pure none
  | some group => pure (if group.ownerId = uid then some group else none)

def addMember (uid : String) (gid : ℕ) (memberUid : String) : Statements Response := do
  if memberUid = "" then pure (.error (400, 4000001))
  else
    match ← ownedGroup uid gid with
    | none => pure (.ok notGroupOwner)
    | some group =>
      match ← Program.transact { joins := some group.gid } fun db =>
          match db.insertMember ⟨group.gid, memberUid⟩ with
          | none => (false, db)
          | some db => (true, db) with
      | none => pure (.error (500, 5000001))
      | some false => pure (.ok ⟨200, 0, "already a member"⟩)
      | some true => pure (.ok ⟨200, 0, "added"⟩)

def removeMember (uid : String) (gid : ℕ) (targetUid : String) : Statements Response := do
  match ← ownedGroup uid gid with
  | none => pure (.ok notGroupOwner)
  | some _ =>
    if targetUid = uid then pure (.ok ⟨400, 4000001, "cannot remove yourself"⟩)
    else
      let _ ← Program.update {} fun db => some (db.removeMember gid targetUid)
      pure (.ok ⟨200, 0, "removed"⟩)

/-- AddAgent. -/
def addAgent (uid : String) (gid agentId : ℕ) : Statements Response := do
  if agentId = 0 then pure (.error (400, 4000001))
  else
    match ← ownedGroup uid gid with
    | none => pure (.ok notGroupOwner)
    | some group =>
      match ← Program.query {} fun db => db.agents.find? fun agent => agent.id = agentId with
      | none | some none => pure (.ok ⟨404, 4040001, "agent not found"⟩)
      | some (some agent) =>
        if !(← canAccessAgentIP uid agent.ipAddr) then
          pure (.ok ⟨403, 4030001, "agent is not accessible"⟩)
        else if !(← Program.update { assigns := some group.gid } fun db =>
            some (db.updateAgent agent.id fun row => { row with gid := group.gid })) then
          pure (.error (500, 5000001))
        else pure (.ok ⟨200, 0, "agent added to group"⟩)

/-! ## Agents -/

/-- An agent as ListAgents reports it. -/
structure AgentStatus where
  ipAddr : String
  hostName : String := ""
  online : Bool := false
  agentVersion : String := ""
  uid : String := ""
deriving DecidableEq

/-- The first group of a user, as far as there is one. -/
def firstGroupOf (uid : String) : Statements (Option ℕ) := do
  match ← Program.query {} fun db => db.firstGroup uid with
  | none => pure none
  | some gid => pure gid

/-- The row of an agent after drop_server reported on it. -/
def AgentInfo.sync (agent : AgentInfo) (now : ℤ) (gid : ℕ) (remote : AgentStatus) : AgentInfo :=
  { agent with
    hostname := if remote.hostName = "" then remote.ipAddr else remote.hostName
    online := remote.online
    version := remote.agentVersion
    lastHeartbeat := now
    uid := remote.uid
    gid }

/-- The part of syncAgentsFromDrop for one agent; whether the loop goes on. -/
def syncAgent (now : ℤ) (ownerGid : ℕ) (remote : AgentStatus) : Statements Bool := do
  if remote.ipAddr = "" then pure true
  else
    let agentGid := (← firstGroupOf remote.uid).getD ownerGid
    match ← Program.query {} fun db => db.agent? remote.ipAddr with
    | none => pure false
    | some (some agent) =>
      let mark : AgentMark := { ip := remote.ipAddr, saw := some agent.online }
      if agent.online ≠ remote.online then
        let _ ← Program.update { agent := some { mark with audits := true } } fun db =>
          some { db with agentHistory := db.agentHistory ++ [{
            ipAddr := remote.ipAddr
            hostname := (agent.sync now agentGid remote).hostname
            fromState := agent.online
            toState := remote.online
            reason := if remote.online then "Agent 恢复上线" else "Agent 离线（心跳超时）" }] }
      let audited := decide (agent.online ≠ remote.online)
      Program.update { assigns := some agentGid, agent := some { mark with audited } } fun db =>
        some (db.updateAgent agent.id fun row => row.sync now agentGid remote)
    | some none =>
      let agent : AgentInfo := { ipAddr := remote.ipAddr, environment := "default" }
      let mark : AgentMark := { ip := remote.ipAddr, saw := none }
      Program.update { assigns := some agentGid, agent := some mark } fun db =>
        some (db.createAgent (agent.sync now agentGid remote))

def syncEach (now : ℤ) (ownerGid : ℕ) : List AgentStatus → Statements Unit
  | [] => pure ()
  | remote :: rest => do
    if ← syncAgent now ownerGid remote then syncEach now ownerGid rest

/-- `remotes` is what ListAgents answers, unless drop_server is not available or answers with an
error. -/
def syncAgentsFromDrop (now : ℤ) (ownerUid : String) (remotes : Option (List AgentStatus)) :
    Statements Unit := do
  match remotes with
  | none => pure ()
  | some remotes =>
    let ownerGid := (← firstGroupOf ownerUid).getD 0
    syncEach now ownerGid remotes

/-! ## Requests -/

/-- The requests on groups and agents, with the user that issues each. `syncAgents` stands for
GetAgents, StatAgent and GetAgentAuditLog. -/
inductive GroupRequest where
  | createGroup (gid : ℕ) (uid name : String)
  | deleteGroup (uid : String) (gid : ℕ)
  | addMember (uid : String) (gid : ℕ) (memberUid : String)
  | removeMember (uid : String) (gid : ℕ) (targetUid : String)
  | addAgent (uid : String) (gid agentId : ℕ)
  | syncAgents (now : ℤ) (uid : String) (remotes : Option (List AgentStatus))
deriving DecidableEq

/-- A request of a user, or work that a request started. -/
inductive TenantRequest where
  | task (request : Request)
  | group (request : GroupRequest)
deriving DecidableEq

namespace GroupRequest

def program : GroupRequest → Statements Unit
  | createGroup gid uid name => do
    let _ ← MiniDrop.createGroup gid uid name
  | deleteGroup uid gid => do
    let _ ← MiniDrop.deleteGroup uid gid
  | addMember uid gid memberUid => do
    let _ ← MiniDrop.addMember uid gid memberUid
  | removeMember uid gid targetUid => do
    let _ ← MiniDrop.removeMember uid gid targetUid
  | addAgent uid gid agentId => do
    let _ ← MiniDrop.addAgent uid gid agentId
  | syncAgents now uid remotes => syncAgentsFromDrop now uid remotes

def issuer : GroupRequest → String
  | createGroup _ uid _ => uid
  | deleteGroup uid _ => uid
  | addMember uid _ _ => uid
  | removeMember uid _ _ => uid
  | addAgent uid _ _ => uid
  | syncAgents _ uid _ => uid

/-- The user that the request makes a member of a group. -/
def added : GroupRequest → Option String
  | addMember _ _ memberUid => some memberUid
  | _ => none

end GroupRequest

/-- The user that issues the request; work that goes on without a user has none. -/
def Request.issuer : Request → Option String
  | createTask _ _ uid _ _ _ => some uid
  | retryTask _ uid _ _ _ _ => some uid
  | triggerAnalysis uid _ => some uid
  | updateAnalysisStatus uid _ _ _ => some uid
  | deleteTask uid _ => some uid
  | createContinuousTask _ _ uid _ _ _ => some uid
  | getContinuousWindows uid _ _ _ _ => some uid
  | stopContinuousTask _ uid _ _ => some uid
  | createScheduleTask _ uid _ _ _ => some uid
  | deleteScheduleTask uid _ => some uid
  | waitTaskResult .. | runAnalysis .. | executeScheduledTask .. | changeGroups .. => none

namespace TenantRequest

def program (assigns analysisConfigured : Bool) : TenantRequest → Statements Unit
  | task request => request.program assigns analysisConfigured
  | group request => request.program

def issuer : TenantRequest → Option String
  | task request => request.issuer
  | group request => some request.issuer

def added : TenantRequest → Option String
  | task _ => none
  | group request => request.added

/-- Users change groups by requests on groups alone. -/
def Genuine : TenantRequest → Prop
  | task (.changeGroups ..) => False
  | _ => True

instance (request : TenantRequest) : Decidable request.Genuine := by
  unfold Genuine
  split <;> infer_instance

end TenantRequest

/-- The API server with the requests of its users under way. -/
abbrev TenantPool := Pool TenantRequest Mark Database

end MiniDrop
