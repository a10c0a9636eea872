import MiniDrop.Library.Pool
import MiniDrop.Model.Artifacts

/-! # The requests that change the table of tasks -/

namespace MiniDrop

/-! ## Deleting -/

/-- The soft deletion of the row that `hides` selects, and whether there is one. -/
def softDelete (tid : String) (hides : HotmethodTask → Bool) (db : Database) : Bool × Database :=
  match db.task? tid with
  | none => (false, db)
  | some task =>
    if hides task then (true, db.updateTask tid fun row => { row with deleted := true })
    else (false, db)

/-- DeleteTask, without the objects and the rows of other tables that it deletes as well; `none`
stands for the message of the database. -/
def deleteTask (uid tid : String) : Statements (Option Answer) := do
  match ← checkTaskAccess uid tid false with
  | none => pure (some taskNotFound)
  | some _ =>
    match ← Program.transact { tid } (softDelete tid fun _ => true) with
    | none => pure none
    | some false => pure (some taskNotFound)
    | some true => pure (some ⟨200, 0, "deleted"⟩)

/-- DeleteScheduleTask. -/
def deleteScheduleTask (uid tid : String) : Statements (Option Answer) := do
  match ← Program.transact { tid } (softDelete tid fun task => task.uid = uid) with
  | none => pure none
  | some false => pure (some ⟨404, 4040001, "schedule not found"⟩)
  | some true => pure (some ⟨200, 0, "deleted"⟩)

/-! ## Parameters of an earlier task -/

/-- An integer as `float64` has it: 53 binary digits, rounded to even. -/
def asFloat64 (n : ℤ) : ℤ :=
  let unit : ℤ := 2 ^ (n.natAbs.log2 - 52)
  let q := n / unit
  let r := n % unit
  if 2 * r < unit ∨ 2 * r = unit ∧ q % 2 = 0 then q * unit else (q + 1) * unit

/-- A number in JSON that is read without a type is a `float64`. -/
def numberParam (params : RequestParams) (key : String) : ℤ :=
  match params.lookup key with
  | some (.number value) => asFloat64 value
  | _ => 0

/-- The conversion of a number that is not negative to `uint64`; the language leaves 2^64 open, and
the compiled code turns it into 0. -/
def uint64Param (params : RequestParams) (key : String) : ℤ :=
  let value := numberParam params key
  if value < 18446744073709551616 then value else 0

def textParam (params : RequestParams) (key : String) : String :=
  match params.lookup key with
  | some (.text value) => value
  | _ => ""

def flagParam (params : RequestParams) (key : String) : Bool :=
  match params.lookup key with
  | some (.flag value) => value
  | _ => false

/-- RetryTask; `newTid` is the fresh id. -/
def retryTask (now : ℤ) (uid userName tid newTid : String) (dispatch : RpcReply) :
    Statements CreateResult := do
  match ← checkTaskAccess uid tid false with
  | none => pure (.refused 404 4040001 (some "task not found"))
  | some task =>
    let params := task.requestParams
    let req : CreateTaskReq :=
      { name := task.name
        type := task.type
        profilerType := task.profilerType
        targetIp := task.targetIp
        pid := numberParam params "pid"
        duration := uint64Param params "duration"
        hz := numberParam params "hz"
        callgraph := textParam params "callgraph"
        subprocess := flagParam params "subprocess"
        event := textParam params "event" }
    if !isValidTaskProfilerCombination task.type task.profilerType then
      pure (invalidCombination task.type task.profilerType)
    else if !(← dispatchNewTask (newTask now newTid uid userName req)
        "retry task created and pending dispatch" "queued in drop_server" dispatch.rejection) then
      pure (.refused 500 5000001 none)
    else pure (dispatch.created newTid)

/-! ## Schedules -/

structure CreateScheduleReq where
  taskName : String
  type : ℤ := 0
  profilerType : ℤ := 0
  targetIp : String
  pid : ℤ
  duration : ℤ
  hz : ℤ := 0
  callgraph : String := ""
  cronExpr : String
deriving DecidableEq

def scheduleTask (tid uid userName : String) (req : CreateScheduleReq) : HotmethodTask :=
  let hz := if req.hz = 0 then 99 else req.hz
  let callgraph := if req.callgraph = "" then "dwarf" else req.callgraph
  { tid, uid, userName
    name := "[定时] " ++ req.taskName
    type := req.type
    profilerType := req.profilerType
    targetIp := req.targetIp
    requestParams := [("pid", .number req.pid), ("duration", .number req.duration),
      ("hz", .number hz), ("callgraph", .text callgraph), ("subprocess", .flag false),
      ("cron_expr", .text req.cronExpr)]
    status := taskStatusNew }

/-- CreateScheduleTask; `cronError` is what the parser says about the expression. -/
def createScheduleTask (tid uid userName : String) (req : CreateScheduleReq)
    (cronError : Option String) : Statements CreateResult := do
  if !(← canAccessAgentIP uid req.targetIp) then
    pure (.refused 404 4040001 (some "agent not found"))
  else if !isValidTaskProfilerCombination req.type req.profilerType then
    pure (invalidCombination req.type req.profilerType)
  else
    match cronError with
    | some error => pure (.refused 400 4000001 (some ("invalid cron expression: " ++ error)))
    | none =>
      if !(← Program.update { tid, writes := true }
          fun db => db.createTask (scheduleTask tid uid userName req)) then
        pure (.refused 500 5000001 none)
      else pure (.created tid)

/-- Why a scheduled task is not dispatched. -/
def RpcReply.cronRejection : RpcReply → Option String
  | .notConnected => some "cron dispatch failed: drop_server unavailable"
  | .failed error => some ("cron dispatch failed: " ++ error)
  | .answered code message =>
    if code ≠ 0 then some ("cron dispatch rejected: " ++ message) else none

/-- The row of a run of a schedule. -/
def scheduledTask (now : ℤ) (newTid : String) (schedule : HotmethodTask) : HotmethodTask :=
  { tid := newTid
    name := "[定时触发] " ++ schedule.name
    type := schedule.type
    profilerType := schedule.profilerType
    targetIp := schedule.targetIp
    requestParams := schedule.requestParams
    status := taskStatusNew
    uid := schedule.uid
    userName := schedule.userName
    createTime := now }

/-- executeScheduledTask for the captured row of a schedule. -/
def executeScheduledTask (now : ℤ) (newTid : String) (schedule : HotmethodTask)
    (dispatch : RpcReply) : Statements Unit := do
  let _ ← dispatchNewTask (scheduledTask now newTid schedule)
    "scheduled task created and pending dispatch" "queued in drop_server (cron)"
    dispatch.cronRejection

/-! ## Continuous tasks -/

structure CreateContinuousReq where
  name : String := ""
  targetIp : String
  pid : ℤ
  hz : ℤ := 0
  windowSec : ℤ := 0
  profilerType : ℤ := 0
  callgraph : String := ""
  event : String := ""
deriving DecidableEq

def continuousTask (now : ℤ) (tid uid userName : String) (req : CreateContinuousReq) :
    HotmethodTask :=
  let hz := if req.hz = 0 then 10 else req.hz
  let windowSec := if req.windowSec = 0 then 300 else req.windowSec
  let callgraph := if req.callgraph = "" then "dwarf" else req.callgraph
  let event := if req.event = "" then "cpu-cycles" else req.event
  { tid, uid, userName
    name := if req.name = "" then "continuous-pid" ++ toString req.pid else req.name
    type := 2
    profilerType := req.profilerType
    targetIp := req.targetIp
    requestParams := [("pid", .number req.pid), ("hz", .number hz),
      ("window_sec", .number windowSec), ("callgraph", .text callgraph), ("event", .text event),
      ("continuous", .flag true)]
    status := taskStatusRunning
    statusInfo := "continuous profiling running"
    createTime := now
    beginTime := some now }

/-- createContinuousInternal; `tid` is the id that StartContinuous answers with. -/
def createContinuousInternal (now : ℤ) (tid uid userName : String) (req : CreateContinuousReq)
    (reply : RpcReply) : Statements CreateResult := do
  if !(← canAccessAgentIP uid req.targetIp) then
    pure (.refused 404 4040001 (some "agent not found"))
  else
    match reply with
    | .notConnected => pure (.refused 503 5000002 (some "drop_server unavailable"))
    | .failed error => pure (.refused 500 5000002 (some error))
    | .answered code message =>
      if code ≠ 0 then pure (.refused 500 5000001 (some message))
      else if !(← Program.update { tid, writes := true, holds := true } fun db =>
          db.createTask (continuousTask now tid uid userName req)) then
        pure (.refused 500 5000001 none)
      else
        recordStateChange tid (-1) taskStatusRunning "continuous profiling started"
          changeTypeTask false
        pure (.created tid)

/-! ## All of them -/

/-- The requests, and the work that they start, with what they get from outside the database. -/
inductive Request where
  | createTask (now : ℤ) (tid uid userName : String) (req : CreateTaskReq) (dispatch : RpcReply)
  | retryTask (now : ℤ) (uid userName tid newTid : String) (dispatch : RpcReply)
  | waitTaskResult (tid : String) (polls : List Poll)
  | triggerAnalysis (uid tid : String)
  | runAnalysis (tid : String) (failure : Option (String × String))
  | updateAnalysisStatus (uid tid : String) (analysisStatus : ℤ) (statusInfo : String)
  | deleteTask (uid tid : String)
  | createContinuousTask (now : ℤ) (tid uid userName : String) (req : CreateContinuousReq)
      (reply : RpcReply)
  | getContinuousWindows (uid tid : String) (reply : Option (List ContinuousWindowInfo))
      (earliest latest : Option ℤ)
  | stopContinuousTask (now : ℤ) (uid tid : String) (reply : RpcReply)
  | createScheduleTask (tid uid userName : String) (req : CreateScheduleReq)
      (cronError : Option String)
  | executeScheduledTask (now : ℤ) (newTid : String) (schedule : HotmethodTask)
      (dispatch : RpcReply)
  | deleteScheduleTask (uid tid : String)
  /-- Any change of users' groups and agents. -/
  | changeGroups (agents : List AgentInfo) (members : List GroupMember)
deriving DecidableEq

namespace Request

def program (assigns analysisConfigured : Bool) : Request → Statements Unit
  | createTask now tid uid userName req dispatch => do
    let _ ← createTaskInternal now tid uid userName req dispatch
  | retryTask now uid userName tid newTid dispatch => do
    let _ ← MiniDrop.retryTask now uid userName tid newTid dispatch
  | waitTaskResult tid polls => do
    let _ ← MiniDrop.waitTaskResult tid polls
  | triggerAnalysis uid tid => do
    let _ ← MiniDrop.triggerAnalysis assigns analysisConfigured uid tid
  | runAnalysis tid failure => MiniDrop.runAnalysis tid failure
  | updateAnalysisStatus uid tid analysisStatus statusInfo => do
    let _ ← MiniDrop.updateAnalysisStatus assigns uid tid analysisStatus statusInfo
  | deleteTask uid tid => do
    let _ ← MiniDrop.deleteTask uid tid
  | createContinuousTask now tid uid userName req reply => do
    let _ ← createContinuousInternal now tid uid userName req reply
  | getContinuousWindows uid tid reply earliest latest => do
    let _ ← MiniDrop.getContinuousWindows assigns analysisConfigured uid tid reply earliest latest
  | stopContinuousTask now uid tid reply => do
    let _ ← MiniDrop.stopContinuousTask now uid tid reply
  | createScheduleTask tid uid userName req cronError => do
    let _ ← MiniDrop.createScheduleTask tid uid userName req cronError
  | executeScheduledTask now newTid schedule dispatch =>
    MiniDrop.executeScheduledTask now newTid schedule dispatch
  | deleteScheduleTask uid tid => do
    let _ ← MiniDrop.deleteScheduleTask uid tid
  | changeGroups agents members => do
    let _ ← Program.update {} fun db => some { db with agents, members }

end Request

/-- The API server with its requests under way. -/
abbrev ServerPool := Pool Request Mark Database

end MiniDrop
