import MiniDrop.Model.Database

/-! # Task status in the API server

Status transitions, the creation of a one-shot task, and the loop that waits for its result.
What a remote call answers is an argument. -/

namespace MiniDrop

/-! ## Transitions -/

def normalizeTaskStatus (status : ℤ) : ℤ :=
  if status = taskStatusDispatched then taskStatusNew
  else if status = taskStatusTimeout then taskStatusFailed
  else status

/-- `strconv.Atoi`. -/
def atoi (digits : List Char) : Option ℤ :=
  (Text.signed? Text.digits? digits).filter fun n =>
    -9223372036854775808 ≤ n ∧ n ≤ 9223372036854775807

/-- Status and reason in a message `STATUS:<status>:<reason>`. -/
def parseDropStatusMessage (message : String) : Option (ℤ × String) :=
  if "STATUS:".toList <+: message.toList then
    let parts := message.toList.drop "STATUS:".length
    match parts.dropWhile (· ≠ ':') with
    | [] => none
    | _ :: reason =>
      (atoi (parts.takeWhile (· ≠ ':'))).map fun status =>
        (normalizeTaskStatus status, String.ofList reason)
  else none

/-- The UPDATE and the INSERT of one transition. -/
def applyTransition (now : ℤ) (tid : String) (task : HotmethodTask) (fromState toState : ℤ)
    (reason : String) (endTime : Option ℤ) (db : Database) : Database :=
  let db := db.updateTask tid fun row =>
    { row with
      status := toState
      statusInfo := reason
      beginTime := if toState = taskStatusRunning ∧ task.beginTime = none then some now
        else row.beginTime
      endTime := endTime.or row.endTime }
  if fromState ≠ toState then
    db.addHistory { tid, fromState, toState, reason, changeType := changeTypeTask }
  else db

def transitionTaskStatus (now : ℤ) (tid : String) (toState : ℤ) (reason : String)
    (endTime : Option ℤ) : Statements Unit := do
  let toState := normalizeTaskStatus toState
  match ← firstTask tid true with
  | .error _ => pure ()
  | .ok task =>
    let fromState := normalizeTaskStatus task.status
    -- one transaction: a failure of either statement undoes both
    let _ ← Program.update { tid, writes := true } fun db =>
      some (applyTransition now tid task fromState toState reason endTime db)

def syncDropTaskStatus (now : ℤ) (tid : String) (status : ℤ) (reason : String) :
    Statements Unit :=
  let status := normalizeTaskStatus status
  if status = taskStatusSuccess then transitionTaskStatus now tid status reason (some now)
  else if status = taskStatusFailed then transitionTaskStatus now tid status reason (some now)
  else transitionTaskStatus now tid status reason none

def ensureTaskReached (now : ℤ) (tid : String) (state : ℤ) (reason : String) :
    Statements Unit := do
  let state := normalizeTaskStatus state
  match ← firstTask tid false with
  | .error _ => pure ()
  | .ok task =>
    if normalizeTaskStatus task.status < state then
      transitionTaskStatus now tid state reason none

def updateTaskStatusInfo (tid reason : String) : Statements Unit := do
  let _ ← Program.update { tid } fun db =>
    some (db.updateTask tid fun row => { row with statusInfo := reason })

/-! ## Waiting for a result -/

/-- What the object store does with an embedded file. -/
inductive StorageReply where
  | notConfigured
  | stored
  | failed (error : String)
deriving DecidableEq

/-- The key of the artifact, or why there is none. -/
def persistFetchedResultFile (storage : StorageReply) (tid : String)
    (resp : FetchDataResponse) : Except String String :=
  if resp.cosKey ≠ "" then .ok resp.cosKey
  else
    match resp.file with
    | none => .error "collector result missing artifact: no cos_key or embedded file"
    | some file =>
      if file.content = [] then
        .error "collector result missing artifact: no cos_key or embedded file"
      else
        match storage with
        | .notConfigured =>
          .error "collector returned embedded file but storage is not configured"
        | .failed error => .error ("store embedded collector result failed: " ++ error)
        | .stored =>
          .ok ("profiler/" ++ tid ++ "/" ++ (if file.name = "" then tid ++ ".data" else file.name))

/-- One pass through the loop of waitTaskResult, as far as it depends on the outside. `now` is
its clock reading, and a response comes with the answer of the object store. -/
inductive Poll where
  | cancelled (now : ℤ) (error : String)
  | expired (now : ℤ)
  | unreachable
  | fetched (now : ℤ) (resp : FetchDataResponse) (storage : StorageReply)
deriving DecidableEq

/-- How a pass ends: with the next tick, or with the end of the loop. Then `artifact` is the key
that persistFetchedResultFile returned, and `analysis` the task type that runAnalysis was
started with. -/
inductive PollResult where
  | again
  | ended (artifact : Option String) (analysis : Option ℤ)
deriving DecidableEq

/-- The status text of a delivered result. -/
def readyReason (cosKey : String) : String :=
  if cosKey ≠ "" then "collector result ready" ++ (": " ++ cosKey) else "collector result ready"

/-- The part for `code == 0`. -/
def settleResult (now : ℤ) (tid : String) (resp : FetchDataResponse) (storage : StorageReply) :
    Statements PollResult := do
  match persistFetchedResultFile storage tid resp with
  | .error storeErr =>
    ensureTaskReached now tid taskStatusRunning "collector ran before result was fetched"
    transitionTaskStatus now tid taskStatusFailed storeErr (some now)
    pure (.ended none none)
  | .ok cosKey =>
    ensureTaskReached now tid taskStatusRunning "collector ran before result was fetched"
    ensureTaskReached now tid taskStatusUploading "collector uploaded result"
    transitionTaskStatus now tid taskStatusSuccess (readyReason cosKey) (some now)
    match ← firstTask tid false with
    | .ok task => pure (.ended (some cosKey) (some task.type))
    | .error _ => pure (.ended (some cosKey) none)

/-- The body of the loop. -/
def pollOnce (tid : String) : Poll → Statements PollResult
  | .cancelled now error => do
    transitionTaskStatus now tid taskStatusFailed ("cancelled: " ++ error) (some now)
    pure (.ended none none)
  | .expired now => do
    transitionTaskStatus now tid taskStatusFailed "timeout waiting for drop_server result"
      (some now)
    pure (.ended none none)
  | .unreachable => pure .again
  | .fetched now resp storage => do
    match parseDropStatusMessage resp.message with
    | some (status, reason) =>
      syncDropTaskStatus now tid status reason
      if status = taskStatusSuccess ∨ status = taskStatusFailed then pure (.ended none none)
      else if resp.code = 0 then settleResult now tid resp storage
      else pure .again
    | none =>
      if resp.code = 0 then settleResult now tid resp storage
      else if resp.message ≠ "" ∧ resp.message ≠ "Result not found" then
        ensureTaskReached now tid taskStatusRunning "collector started before failure"
        transitionTaskStatus now tid taskStatusFailed resp.message (some now)
        pure (.ended none none)
      else pure .again

/-- The loop over the passes that take place. -/
def waitTaskResult (tid : String) : List Poll → Statements PollResult
  | [] => pure .again
  | poll :: polls => do
    match ← pollOnce tid poll with
    | .again => waitTaskResult tid polls
    | ended => pure ended

/-! ## Creating a task -/

structure CreateTaskReq where
  name : String
  type : ℤ := 0
  profilerType : ℤ := 0
  targetIp : String
  pid : ℤ
  duration : ℤ
  hz : ℤ := 0
  callgraph : String := ""
  subprocess : Bool := false
  event : String := ""
deriving DecidableEq

/-- The collectors that fit a task type. -/
def isValidTaskProfilerCombination (taskType profilerType : ℤ) : Bool :=
  [((0 : ℤ), (0 : ℤ)), (1, 1), (4, 4), (5, 6), (6, 3), (10, 2), (11, 2), (12, 5)].contains
    (taskType, profilerType)

/-- Why a task is not dispatched. -/
def RpcReply.rejection : RpcReply → Option String
  | .notConnected => some "drop_server unavailable (gRPC not connected)"
  | .failed error => some ("dispatch failed: " ++ error)
  | .answered code message =>
    if code ≠ 0 then some ("drop_server rejected: " ++ message) else none

/-- The INSERT of a new task and what follows from its dispatch, where `rejection` tells why
drop_server does not take it. Answers whether there is a row. -/
def dispatchNewTask (task : HotmethodTask) (created queued : String)
    (rejection : Option String) : Statements Bool := do
  if !(← Program.update { tid := task.tid, writes := true, holds := true }
      fun db => db.createTask task) then
    pure false
  else
    recordStateChange task.tid (-1) taskStatusNew created changeTypeTask rejection.isSome
    match rejection with
    | some reason =>
      let _ ← Program.update
        { tid := task.tid, writes := true, holds := true, unchecked := true } fun db =>
          some (db.updateTask task.tid fun row =>
            { row with status := taskStatusFailed, statusInfo := reason })
      recordStateChange task.tid taskStatusNew taskStatusFailed reason changeTypeTask false
      pure true
    | none =>
      updateTaskStatusInfo task.tid queued
      pure true

/-- A new task, or HTTP status, code and message of a refusal; `none` stands for the message
of the database. -/
inductive CreateResult where
  | created (tid : String)
  | refused (httpStatus code : ℤ) (message : Option String)
deriving DecidableEq

/-- What the request is answered after the dispatch. -/
def RpcReply.created (tid : String) (dispatch : RpcReply) : CreateResult :=
  match dispatch, dispatch.rejection with
  | _, none => .created tid
  | .notConnected, some _ => .refused 503 5000002 (some "drop_server unavailable")
  | _, some reason => .refused 500 5000002 (some reason)

def invalidCombination (taskType profilerType : ℤ) : CreateResult :=
  .refused 400 4000001 (some ("invalid task_type/profiler_type combination: type=" ++
    toString taskType ++ " profiler_type=" ++ toString profilerType))

/-- The row of a new task. -/
def newTask (now : ℤ) (tid uid userName : String) (req : CreateTaskReq) : HotmethodTask :=
  let hz := if req.hz = 0 then 99 else req.hz
  let callgraph := if req.callgraph = "" then "dwarf" else req.callgraph
  { tid, uid, userName
    name := req.name
    type := req.type
    profilerType := req.profilerType
    targetIp := req.targetIp
    requestParams := [("pid", .number req.pid), ("duration", .number req.duration),
      ("hz", .number hz), ("callgraph", .text callgraph),
      ("subprocess", .flag req.subprocess), ("event", .text req.event)]
    status := taskStatusNew
    createTime := now }

/-- createTaskInternal; `tid` is the fresh id. -/
def createTaskInternal (now : ℤ) (tid uid userName : String) (req : CreateTaskReq)
    (dispatch : RpcReply) : Statements CreateResult := do
  if !(← canAccessAgentIP uid req.targetIp) then
    pure (.refused 404 4040001 (some "agent not found"))
  else if !isValidTaskProfilerCombination req.type req.profilerType then
    pure (invalidCombination req.type req.profilerType)
  else if !(← dispatchNewTask (newTask now tid uid userName req)
      "task created and pending dispatch" "queued in drop_server" dispatch.rejection) then
    pure (.refused 500 5000001 none)
  else pure (dispatch.created tid)

/-- A task from its creation to the end of its loop. -/
def oneShotTask (now : ℤ) (tid uid userName : String) (req : CreateTaskReq)
    (dispatch : RpcReply) (polls : List Poll) : Statements PollResult := do
  match ← createTaskInternal now tid uid userName req dispatch with
  | .created tid => waitTaskResult tid polls
  | .refused .. => pure (.ended none none)

end MiniDrop
