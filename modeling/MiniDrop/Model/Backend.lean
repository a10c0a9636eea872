import MiniDrop.Model.ControlService
import MiniDrop.Model.Groups
import MiniDrop.Model.NaturalLanguage
import MiniDrop.Model.ServiceRuns

/-! # The API server with drop_server behind it

A request executes statements on the tables, calls drop_server, and registers schedules with the
cron engine. Whether a call arrives and whether its answer does is an argument. -/

namespace MiniDrop

/-! ## State -/

/-- The cron engine holds the rows that its closures captured, under the ids of their entries;
`entries` leads from a tid to the entry that was registered last. -/
structure ScheduleManager where
  entries : StdMap ℕ := ∅
  cron : List (ℕ × HotmethodTask) := []
  /-- The id that the cron engine gave last. -/
  lastId : ℕ := 0

/-- A task that was sent to drop_server, and whether the user it is sent for could use the agent
at that moment. -/
structure Dispatch where
  uid : String
  targetIp : String
  call : ControlCall
  authorised : Bool
deriving DecidableEq

structure Backend where
  db : Database := {}
  service : HotmethodService := {}
  schedule : ScheduleManager := {}
  /-- The tasks sent so far. -/
  sent : List Dispatch := []

/-- What a statement means to other requests. -/
structure BackendMark where
  /-- What it does to the tables, and its mark as a statement on them. -/
  change : Database → Database := id
  table : Mark := {}
  /-- It does not involve the database, and cannot fail. -/
  inMemory : Bool := false
  /-- The call that drop_server handles, by its steady clock. -/
  call : Option (ℤ × ControlCall) := none
  /-- The answer to the call is lost. -/
  lost : Bool := false
  /-- The continuous task that nobody stops unless this call does. -/
  abandons : Option String := none
  /-- User and address of a dispatch under way that relies on the access seen so far. -/
  relies : Option (String × String) := none
  /-- The dispatch begins without a look at the access. -/
  unchecked : Bool := false
  /-- A continuous task is being created. -/
  creates : Bool := false
  /-- The schedule that is being created, or deleted. -/
  registers : Option String := none
  unregisters : Option String := none
  /-- The task that is read to be retried, and the entry of the cron engine that fires. -/
  retries : Option String := none
  fires : Option ℕ := none

/-- The operations of the API server, as programs over all of its state. -/
abbrev BackendProgram := Program BackendMark Backend

/-- Statements on the tables. -/
def onDb {α : Type} (mark : BackendMark) (p : Statements α) : BackendProgram α :=
  p.lift Backend.db (fun db b => { b with db }) fun table change => { mark with change, table }

/-! ## Calls -/

/-- What becomes of a remote call. -/
inductive RpcFate where
  /-- It fails before drop_server handles it. -/
  | unreached (error : String)
  /-- drop_server handles it, and its answer is lost. -/
  | unanswered (error : String)
  | answered
deriving DecidableEq

/-- The call, where there is a connection to drop_server at all, and the answer with the id of a
continuous task; `note` records what is sent. -/
def callControl (mark : BackendMark) (now : ℤ) (call : ControlCall) (fate : Option RpcFate)
    (note : Backend → Backend) : BackendProgram (RpcReply × String) := do
  match fate with
  | none => pure (.notConnected, "")
  | some (.unreached error) =>
    let _ ← Program.transact mark fun b => ((), note b)
    pure (.failed error, "")
  | some (.unanswered error) =>
    let _ ← Program.transact { mark with call := some (now, call), lost := true } fun b =>
      ((), { note b with service := (b.service.handle now call).1 })
    pure (.failed error, "")
  | some .answered =>
    match ← Program.transact { mark with call := some (now, call) } fun b =>
        let handled := b.service.handle now call
        (handled.2, { note b with service := handled.1 }) with
    | none => pure (.failed "", "")
    | some response => pure (.answered response.code response.message, response.taskId)

/-- The user and the address that a request relies on which goes on to send a task. -/
def reliesOn (fate : Option RpcFate) (uid targetIp : String) : Option (String × String) :=
  if fate.isSome then some (uid, targetIp) else none

/-- The task is sent for the user. -/
def Backend.dispatched (uid targetIp : String) (call : ControlCall) (b : Backend) : Backend :=
  let authorised := ((canAccessAgentIP uid targetIp).run b.db).1
  { b with sent := b.sent ++ [{ uid, targetIp, call, authorised }] }

/-- The INSERT of a new task, its dispatch, and what follows from the answer; `none` where there
is no row. -/
def dispatchTask (mark : BackendMark) (steadyNow : ℤ) (task : HotmethodTask) (taskDesc : TaskDesc)
    (created queued : String) (rejection : RpcReply → Option String) (fate : Option RpcFate) :
    BackendProgram (Option RpcReply) := do
  if !(← onDb mark (Program.update { tid := task.tid, writes := true, holds := true } fun db =>
      db.createTask task)) then
    pure none
  else
    onDb { mark with unchecked := false }
      (recordStateChange task.tid (-1) taskStatusNew created changeTypeTask true)
    let call := ControlCall.createTask task.targetIp taskDesc
    let (reply, _) ← callControl {} steadyNow call fate
      (Backend.dispatched task.uid task.targetIp call)
    match rejection reply with
    | some reason =>
      let _ ← onDb {} (Program.update { tid := task.tid, writes := true } fun db =>
        some (db.updateTask task.tid fun row =>
          { row with status := taskStatusFailed, statusInfo := reason }))
      onDb {}
        (recordStateChange task.tid taskStatusNew taskStatusFailed reason changeTypeTask false)
      pure (some reply)
    | none =>
      onDb {} (updateTaskStatusInfo task.tid queued)
      pure (some reply)

/-! ## One-shot tasks -/

/-- The JSON binding accepts the request: required fields are there, numbers fit their types. -/
def CreateTaskReq.binds (req : CreateTaskReq) : Bool :=
  req.name ≠ "" ∧ req.targetIp ≠ "" ∧ req.pid ≠ 0 ∧ -2147483648 ≤ req.pid ∧
    req.pid ≤ 2147483647 ∧ 0 < req.duration ∧ req.duration < 18446744073709551616 ∧
    0 ≤ req.hz ∧ req.hz < 4294967296

/-- The message of a task with these parameters. -/
def taskMessage (tid : String) (type profilerType duration hz pid : ℤ) (callgraph : String)
    (subprocess : Bool) (event : String) : TaskDesc :=
  { taskId := tid
    taskType := .ofInt type
    profilerType := .ofInt profilerType
    timeoutSec := .ofInt ((duration + 30) % 18446744073709551616)
    sampleArgv :=
      { hz := .ofInt hz
        duration := .ofInt duration
        pid := .ofInt pid
        callgraph
        subprocess
        event } }

/-- The message of createTaskInternal and RetryTask. -/
def CreateTaskReq.message (req : CreateTaskReq) (tid : String) : TaskDesc :=
  taskMessage tid req.type req.profilerType req.duration (if req.hz = 0 then 99 else req.hz) req.pid
    (if req.callgraph = "" then "dwarf" else req.callgraph) req.subprocess req.event

namespace Backend

/-- createTaskInternal. -/
def createTaskInternal (now steadyNow : ℤ) (tid uid userName : String) (req : CreateTaskReq)
    (fate : Option RpcFate) : BackendProgram CreateResult := do
  let mark : BackendMark := { relies := reliesOn fate uid req.targetIp }
  if !(← onDb mark (canAccessAgentIP uid req.targetIp)) then
    pure (.refused 404 4040001 (some "agent not found"))
  else if !isValidTaskProfilerCombination req.type req.profilerType then
    pure (invalidCombination req.type req.profilerType)
  else
    match ← dispatchTask mark steadyNow (newTask now tid uid userName req) (req.message tid)
        "task created and pending dispatch" "queued in drop_server" RpcReply.rejection fate with
    | none => pure (.refused 500 5000001 none)
    | some reply => pure (reply.created tid)

/-- CreateTask; the message of a binding error comes from a library. -/
def createTask (now steadyNow : ℤ) (tid uid userName : String) (req : CreateTaskReq)
    (fate : Option RpcFate) : BackendProgram CreateResult := do
  if !req.binds then pure (.refused 400 4000001 none)
  else createTaskInternal now steadyNow tid uid userName req fate

end Backend

/-- The parameters that RetryTask reads off an earlier task. -/
def HotmethodTask.retryReq (task : HotmethodTask) : CreateTaskReq :=
  { name := task.name
    type := task.type
    profilerType := task.profilerType
    targetIp := task.targetIp
    pid := numberParam task.requestParams "pid"
    duration := uint64Param task.requestParams "duration"
    hz := numberParam task.requestParams "hz"
    callgraph := textParam task.requestParams "callgraph"
    subprocess := flagParam task.requestParams "subprocess"
    event := textParam task.requestParams "event" }

namespace Backend

/-- RetryTask. -/
def retryTask (now steadyNow : ℤ) (uid userName tid newTid : String) (fate : Option RpcFate) :
    BackendProgram CreateResult := do
  match ← onDb { retries := some tid } (checkTaskAccess uid tid false) with
  | none => pure (.refused 404 4040001 (some "task not found"))
  | some task =>
    let req := task.retryReq
    if !isValidTaskProfilerCombination task.type task.profilerType then
      pure (invalidCombination task.type task.profilerType)
    else
      let mark : BackendMark := { relies := reliesOn fate uid req.targetIp, unchecked := true }
      match ← dispatchTask mark steadyNow (newTask now newTid uid userName req)
          (req.message newTid) "retry task created and pending dispatch" "queued in drop_server"
          RpcReply.rejection fate with
      | none => pure (.refused 500 5000001 none)
      | some reply => pure (reply.created newTid)

end Backend

/-! ## Schedules -/

/-- The cron parsers: what the first says about an expression that it refuses, and whether the
engine takes an expression. -/
structure CronParser where
  validate : String → Option String
  accepts : String → Bool

namespace ScheduleManager

/-- AddFunc of the cron engine, and the entry of the tid. -/
def register (sm : ScheduleManager) (accepts : String → Bool) (cronExpr : String)
    (task : HotmethodTask) : ScheduleManager :=
  if accepts cronExpr then
    { entries := sm.entries.insert task.tid (sm.lastId + 1)
      cron := sm.cron ++ [(sm.lastId + 1, task)]
      lastId := sm.lastId + 1 }
  else sm

/-- Remove of the cron engine for the entry of the tid. -/
def unregister (sm : ScheduleManager) (tid : String) : ScheduleManager :=
  match sm.entries[tid]? with
  | none => sm
  | some id =>
    { sm with
      entries := sm.entries.erase tid
      cron := sm.cron.filter fun entry => entry.1 ≠ id }

/-- loadFromDB for these rows. -/
def load (accepts : String → Bool) (rows : List HotmethodTask) : ScheduleManager :=
  rows.foldl (fun sm task =>
    let cronExpr := textParam task.requestParams "cron_expr"
    if cronExpr = "" then sm else sm.register accepts cronExpr task) {}

end ScheduleManager

/-- The rows that `tid LIKE 'sched-%'` finds. -/
def Database.scheduleRows (db : Database) : List HotmethodTask :=
  (db.tasks.toList.map fun (tid, row) => { row with tid }).filter fun task =>
    !task.deleted && "sched-".toList.isPrefixOf task.tid.toList

/-- The JSON binding accepts the request. -/
def CreateScheduleReq.binds (req : CreateScheduleReq) : Bool :=
  req.taskName ≠ "" ∧ req.targetIp ≠ "" ∧ req.pid ≠ 0 ∧ -2147483648 ≤ req.pid ∧
    req.pid ≤ 2147483647 ∧ 0 < req.duration ∧ req.duration < 18446744073709551616 ∧
    0 ≤ req.hz ∧ req.hz < 4294967296 ∧ req.cronExpr ≠ ""

namespace Backend

/-- CreateScheduleTask; `suffix` is the fresh part of the id. -/
def createScheduleTask (parser : CronParser) (suffix uid userName : String)
    (req : CreateScheduleReq) : BackendProgram CreateResult := do
  if !req.binds then pure (.refused 400 4000001 none)
  else
    let tid := "sched-" ++ suffix
    match ← onDb { registers := some tid } (MiniDrop.createScheduleTask tid uid userName req
        (parser.validate req.cronExpr)) with
    | .refused httpStatus code message => pure (.refused httpStatus code message)
    | .created _ =>
      let _ ← Program.transact { inMemory := true } fun b => ((), { b with
        schedule := b.schedule.register parser.accepts req.cronExpr
          (scheduleTask tid uid userName req) })
      pure (.created tid)

/-- DeleteScheduleTask. -/
def deleteScheduleTask (uid tid : String) : BackendProgram (Option Answer) := do
  match ← onDb { unregisters := some tid } (MiniDrop.deleteScheduleTask uid tid) with
  | none => pure none
  | some answer =>
    if answer.code = 0 then
      let _ ← Program.transact { inMemory := true } fun b =>
        ((), { b with schedule := b.schedule.unregister tid })
    pure (some answer)

/-- The message of executeScheduledTask. -/
def scheduledMessage (newTid : String) (schedule : HotmethodTask) : TaskDesc :=
  taskMessage newTid schedule.type schedule.profilerType
    (uint64Param schedule.requestParams "duration") (numberParam schedule.requestParams "hz")
    (numberParam schedule.requestParams "pid") (textParam schedule.requestParams "callgraph") false
    ""

/-- executeScheduledTask for the row that the `i`th entry of the cron engine captured. -/
def executeScheduledTask (now steadyNow : ℤ) (newTid : String) (i : ℕ) (fate : Option RpcFate) :
    BackendProgram Unit := do
  match ← Program.query { fires := some i } fun b => b.schedule.cron[i]? with
  | none | some none => pure ()
  | some (some (_, schedule)) =>
    let mark : BackendMark :=
      { relies := reliesOn fate schedule.uid schedule.targetIp, unchecked := true }
    let _ ← dispatchTask mark steadyNow (scheduledTask now newTid schedule)
      (scheduledMessage newTid schedule) "scheduled task created and pending dispatch"
      "queued in drop_server (cron)" RpcReply.cronRejection fate

/-- A start of the server; `fails` is about the query of loadFromDB. -/
def restart (parser : CronParser) (fails : Bool) (b : Backend) : Backend :=
  { b with schedule := .load parser.accepts (if fails then [] else b.db.scheduleRows) }

end Backend

/-! ## Continuous tasks -/

/-- The JSON binding accepts the request. -/
def CreateContinuousReq.binds (req : CreateContinuousReq) : Bool :=
  req.targetIp ≠ "" ∧ req.pid ≠ 0 ∧ -2147483648 ≤ req.pid ∧ req.pid ≤ 2147483647 ∧
    0 ≤ req.hz ∧ req.hz < 4294967296 ∧ 0 ≤ req.windowSec ∧ req.windowSec < 4294967296

/-- The message of createContinuousInternal. -/
def CreateContinuousReq.message (req : CreateContinuousReq) : StartContinuousRequest :=
  { targetIp := req.targetIp
    pid := .ofInt req.pid
    hz := .ofInt (if req.hz = 0 then 10 else req.hz)
    windowSec := .ofInt (if req.windowSec = 0 then 300 else req.windowSec)
    profilerType := .ofInt req.profilerType
    callgraph := if req.callgraph = "" then "dwarf" else req.callgraph
    event := if req.event = "" then "cpu-cycles" else req.event }

/-- The part of StopContinuousTask after the call of drop_server. -/
def settleStop (now : ℤ) (tid : String) (task : HotmethodTask) (reply : RpcReply) :
    Statements Answer := do
  match reply with
  | .notConnected => pure ⟨503, 5000002, "drop_server unavailable"⟩
  | .failed error => pure ⟨500, 5000002, error⟩
  | .answered code message =>
    if code ≠ 0 then pure ⟨500, 5000002, message⟩
    else
      let changes : Bool := task.status ≠ taskStatusSuccess
      let _ ← Program.update { tid, writes := true, holds := changes, unchecked := changes }
        fun db => some (db.updateTask tid fun row =>
          { row with
            status := taskStatusSuccess
            endTime := some now
            statusInfo := "用户停止" })
      if changes then
        recordStateChange tid task.status taskStatusSuccess "用户停止" changeTypeTask false
      pure ⟨200, 0, message⟩

theorem stopContinuousTask_eq (now : ℤ) (uid tid : String) (reply : RpcReply) :
    MiniDrop.stopContinuousTask now uid tid reply = (do
      match ← checkTaskAccess uid tid reply.rejection.isNone with
      | none => pure taskNotFound
      | some task => settleStop now tid task reply) := rfl

namespace Backend

/-- createContinuousInternal; `cleanup` is the fate of the call that stops what was started when
the row is refused. -/
def createContinuousInternal (now steadyNow : ℤ) (uid userName : String)
    (req : CreateContinuousReq) (fate : Option RpcFate) (cleanup : RpcFate) :
    BackendProgram CreateResult := do
  let mark : BackendMark := { relies := reliesOn fate uid req.targetIp }
  if !(← onDb mark (canAccessAgentIP uid req.targetIp)) then
    pure (.refused 404 4040001 (some "agent not found"))
  else
    let call := ControlCall.startContinuous req.message
    match ← callControl { creates := true } steadyNow call fate
        (dispatched uid req.targetIp call) with
    | (.notConnected, _) => pure (.refused 503 5000002 (some "drop_server unavailable"))
    | (.failed error, _) => pure (.refused 500 5000002 (some error))
    | (.answered code message, tid) =>
      if code ≠ 0 then pure (.refused 500 5000001 (some message))
      else if !(← onDb { creates := true } (Program.update { tid, writes := true } fun db =>
          db.createTask (continuousTask now tid uid userName req))) then
        let mark : BackendMark := { creates := true, abandons := some tid }
        let _ ← callControl mark steadyNow (.stopContinuous tid) (some cleanup) id
        pure (.refused 500 5000001 none)
      else
        onDb {} (recordStateChange tid (-1) taskStatusRunning "continuous profiling started"
          changeTypeTask false)
        pure (.created tid)

/-- CreateContinuousTask. -/
def createContinuousTask (now steadyNow : ℤ) (uid userName : String) (req : CreateContinuousReq)
    (fate : Option RpcFate) (cleanup : RpcFate) : BackendProgram CreateResult := do
  if !req.binds then pure (.refused 400 4000001 none)
  else createContinuousInternal now steadyNow uid userName req fate cleanup

/-- StopContinuousTask. -/
def stopContinuousTask (now : ℤ) (uid tid : String) (fate : Option RpcFate) :
    BackendProgram Answer := do
  match ← onDb {} (checkTaskAccess uid tid true) with
  | none => pure taskNotFound
  | some task =>
    let (reply, _) ← callControl {} now (.stopContinuous tid) fate id
    onDb {} (settleStop now tid task reply)

/-- The windows as ListWindows reports them. -/
def windowInfo (record : ContinuousWindowRecord) : ContinuousWindowInfo :=
  { windowTid := record.windowTid
    seq := record.seq
    startTime := record.startTime
    endTime := record.endTime
    status := record.status
    cosKey := record.cosKey }

/-- GetContinuousWindows, up to the query for the list that it answers with; `reached` tells
whether ListWindows is answered. -/
def getContinuousWindows (assigns analysisConfigured : Bool) (uid tid : String) (reached : Bool) :
    BackendProgram Unit := do
  match ← onDb {} (checkTaskAccess uid tid false) with
  | none => pure ()
  | some parentTask =>
    if reached then
      match ← Program.query {} fun b => b.service.listWindows tid with
      | none | some none => pure ()
      | some (some windows) =>
        let _ ← onDb {}
          (syncWindows assigns analysisConfigured parentTask (windows.map windowInfo))

/-! ## Tasks in natural language -/

/-- firstAccessibleOnlineAgentIP for these agents. -/
def firstAccessible (uid : String) : List AgentInfo → Statements String
  | [] => pure ""
  | agent :: agents => do
    if agent.ipAddr ≠ "" ∧ (← canAccessAgentIP uid agent.ipAddr) then pure agent.ipAddr
    else firstAccessible uid agents

/-- firstAccessibleOnlineAgentIP; `order` are the ids of the agents, latest update first. -/
def firstAccessibleOnlineAgentIP (uid : String) (order : List ℕ) : Statements String := do
  match ← Program.query {} fun db => order.filterMap fun id =>
      db.agents.find? fun agent => agent.id = id && agent.online with
  | none => pure ""
  | some agents => firstAccessible uid agents

/-- The agent for a description without an address. -/
def defaultAgent (uid : String) (req : NaturalLanguageTaskReq) (order : List ℕ) :
    BackendProgram String :=
  if req.text.ip = "" ∧ req.targetIp = "" then onDb {} (firstAccessibleOnlineAgentIP uid order)
  else pure ""

/-- CreateNaturalLanguageTask for a description that is to be executed. -/
def createNaturalLanguageTask (now steadyNow : ℤ) (tid uid userName : String)
    (req : NaturalLanguageTaskReq) (order : List ℕ) (fate : Option RpcFate) (cleanup : RpcFate) :
    BackendProgram CreateResult := do
  let plan := buildNaturalLanguagePlan req (← defaultAgent uid req order)
  if plan.missingFields ≠ [] then pure (.refused 400 4000001 (some plan.clarifyingQuestion))
  else
    match plan.mode with
    | .continuous =>
      createContinuousInternal now steadyNow uid userName
        { name := plan.name
          targetIp := plan.targetIp
          pid := plan.pid.toInt
          hz := plan.hz
          windowSec := plan.windowSec
          profilerType := plan.profilerType
          callgraph := plan.callgraph
          event := plan.event } fate cleanup
    | .oneshot =>
      createTaskInternal now steadyNow tid uid userName
        { name := plan.name
          type := plan.type
          profilerType := plan.profilerType
          targetIp := plan.targetIp
          pid := plan.pid.toInt
          duration := plan.duration
          hz := plan.hz
          callgraph := plan.callgraph
          subprocess := plan.subprocess
          event := plan.event } fate

end Backend

/-! ## All of them -/

/-- The calls of agents, and the passes of the cleanup thread. -/
def Call.FromAgents : Call → Prop
  | .popTask _ | .updateTaskStatus _ | .notifyResult .. | .cleanupTimeoutTasks => True
  | .pushTask .. | .startContinuousTask _ | .stopContinuousTask _ => False

instance : DecidablePred Call.FromAgents := fun call => by
  cases call <;> simp only [Call.FromAgents] <;> infer_instance

/-- What runs in the API server, and in drop_server on behalf of agents. -/
inductive BackendRequest where
  | createTask (now steadyNow : ℤ) (tid uid userName : String) (req : CreateTaskReq)
      (fate : Option RpcFate)
  | createNaturalLanguageTask (now steadyNow : ℤ) (tid uid userName : String)
      (req : NaturalLanguageTaskReq) (order : List ℕ) (fate : Option RpcFate) (cleanup : RpcFate)
  | retryTask (now steadyNow : ℤ) (uid userName tid newTid : String) (fate : Option RpcFate)
  | createScheduleTask (suffix uid userName : String) (req : CreateScheduleReq)
  | deleteScheduleTask (uid tid : String)
  | executeScheduledTask (now steadyNow : ℤ) (newTid : String) (i : ℕ) (fate : Option RpcFate)
  | createContinuousTask (now steadyNow : ℤ) (uid userName : String) (req : CreateContinuousReq)
      (fate : Option RpcFate) (cleanup : RpcFate)
  | stopContinuousTask (now : ℤ) (uid tid : String) (fate : Option RpcFate)
  | getContinuousWindows (uid tid : String) (reached : Bool)
  | deleteTask (uid tid : String)
  /-- The loop of a task, the analysis of one, and requests on groups and agents. -/
  | waitTaskResult (tid : String) (polls : List Poll)
  | triggerAnalysis (uid tid : String)
  | runAnalysis (tid : String) (failure : Option (String × String))
  | updateAnalysisStatus (uid tid : String) (analysisStatus : ℤ) (statusInfo : String)
  | group (request : GroupRequest)
  /-- drop_server handles a call of an agent; `none` is an overflow. -/
  | agentCall (event : Event)

/-- The surroundings of the API server. -/
structure Environment where
  assigns : Bool := false
  analysisConfigured : Bool := false
  parser : CronParser := ⟨fun _ => none, fun _ => true⟩

namespace BackendRequest

def program (env : Environment) : BackendRequest → BackendProgram Unit
  | createTask now steadyNow tid uid userName req fate => do
    let _ ← Backend.createTask now steadyNow tid uid userName req fate
  | createNaturalLanguageTask now steadyNow tid uid userName req order fate cleanup => do
    let _ ← Backend.createNaturalLanguageTask now steadyNow tid uid userName req order fate
      cleanup
  | retryTask now steadyNow uid userName tid newTid fate => do
    let _ ← Backend.retryTask now steadyNow uid userName tid newTid fate
  | createScheduleTask suffix uid userName req => do
    let _ ← Backend.createScheduleTask env.parser suffix uid userName req
  | deleteScheduleTask uid tid => do
    let _ ← Backend.deleteScheduleTask uid tid
  | executeScheduledTask now steadyNow newTid i fate =>
    Backend.executeScheduledTask now steadyNow newTid i fate
  | createContinuousTask now steadyNow uid userName req fate cleanup => do
    let _ ← Backend.createContinuousTask now steadyNow uid userName req fate cleanup
  | stopContinuousTask now uid tid fate => do
    let _ ← Backend.stopContinuousTask now uid tid fate
  | getContinuousWindows uid tid reached =>
    Backend.getContinuousWindows env.assigns env.analysisConfigured uid tid reached
  | deleteTask uid tid => do
    let _ ← onDb {} (MiniDrop.deleteTask uid tid)
  | waitTaskResult tid polls => do
    let _ ← onDb {} (MiniDrop.waitTaskResult tid polls)
  | triggerAnalysis uid tid => do
    let _ ← onDb {} (MiniDrop.triggerAnalysis env.assigns env.analysisConfigured uid tid)
  | runAnalysis tid failure => onDb {} (MiniDrop.runAnalysis tid failure)
  | updateAnalysisStatus uid tid analysisStatus statusInfo => do
    let _ ← onDb {} (MiniDrop.updateAnalysisStatus env.assigns uid tid analysisStatus statusInfo)
  | group request => onDb {} request.program
  | agentCall event => do
    let _ ← Program.transact {} fun b => ((), { b with
      service := if event.call.FromAgents then (b.service.step event).getD b.service
        else b.service })

end BackendRequest

/-- The API server and drop_server, with the requests under way. -/
abbrev BackendPool := Pool BackendRequest BackendMark Backend

end MiniDrop
