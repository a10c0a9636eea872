import MiniDrop.Library.Text
import MiniDrop.Model.Messages
import Std.Data.ExtTreeMap.Lemmas

/-! # HotmethodService: queues, states and continuous tasks of drop_server

Every operation holds the service mutex from start to end, so it is one function from state
to state; Collect gives the mutex up while it waits. Clock readings are arguments: `now` is the
steady clock and `sysNow` the system clock, both in nanoseconds. -/

namespace MiniDrop

/-- `std::map` keyed by strings. -/
abbrev StdMap (α : Type) := Std.ExtTreeMap String α

attribute [simp] Std.ExtTreeMap.getElem?_insert Std.ExtTreeMap.getElem?_erase

/-- `MAX_TASK_QUEUE_SIZE`. -/
def maxTaskQueueSize : ℕ := 100

/-- Whole seconds between two clock readings (`duration_cast` truncates). -/
def elapsedSeconds (now timestamp : ℤ) : ℤ := (now - timestamp).tdiv 1000000000

/-! ## Window task ids -/

/-- The characters that `std::isspace` accepts in the default locale. -/
def isSpaceC (c : Char) : Bool :=
  c = ' ' || c = '\t' || c = '\n' || c = '\x0b' || c = '\x0c' || c = '\r'

/-- `std::stoi`: blanks, an optional sign, the longest run of digits; `none` where it
throws. -/
def stoi (s : List Char) : Option ℤ :=
  let value := Text.signed? (fun ds => Text.digits? (ds.takeWhile Char.isDigit))
    (s.dropWhile isSpaceC)
  value.filter fun n => -2147483648 ≤ n ∧ n ≤ 2147483647

/-- The id of window `seq` of a continuous task. -/
def windowTid (parentTid : String) (seq : ℤ) : String :=
  parentTid ++ "_w" ++ toString seq

/-- Parent id and sequence number that NotifyResult reads off a task id. A suffix that
`stoi` rejects counts as window 0. -/
def splitWindowTid (taskId : String) : Option (String × ℤ) :=
  match Text.rfind "_w".toList taskId.toList with
  | some wpos =>
    if wpos > 0 then
      some (String.ofList (taskId.toList.take wpos),
        (stoi (taskId.toList.drop (wpos + 2))).getD 0)
    else none
  | none => none

/-- `seq + 1` in `int32_t`; signed overflow has no defined result. -/
def nextSeq (seq : ℤ) : Option ℤ :=
  if seq + 1 ≤ 2147483647 then some (seq + 1) else none

/-! ## State -/

structure HotmethodService where
  tasks : StdMap (List TaskDesc) := ∅
  results : StdMap TaskResult := ∅
  tasksState : StdMap TaskStateInfo := ∅
  continuousTasks : StdMap ContinuousTaskConfig := ∅
  continuousWindows : StdMap (List ContinuousWindowRecord) := ∅

namespace HotmethodService

/-- The tasks waiting for the agent at `ip`. -/
def queue (s : HotmethodService) (ip : String) : List TaskDesc :=
  (s.tasks[ip]?).getD []

/-- The queue of `ip` has room for one more task. -/
def hasRoom (s : HotmethodService) (ip : String) : Bool :=
  decide ((s.queue ip).length < maxTaskQueueSize)

/-- UpdateTaskStatus, called with the lock held. -/
def updateTaskStatus (s : HotmethodService) (now : ℤ) (taskId : String) (status : TaskStatus)
    (reason : String) : HotmethodService :=
  { s with tasksState := s.tasksState.insert taskId ⟨status, reason, now⟩ }

/-- `queue.push_back` followed by the transition to PENDING. -/
def enqueue (s : HotmethodService) (now : ℤ) (ip : String) (task : TaskDesc)
    (reason : String) : HotmethodService :=
  updateTaskStatus { s with tasks := s.tasks.insert ip (s.queue ip ++ [task]) }
    now task.taskId .pending reason

/-! ## Operations -/

def pushTask (s : HotmethodService) (now : ℤ) (targetIp : String) (task : TaskDesc) :
    HotmethodService × Bool :=
  if s.hasRoom targetIp then (s.enqueue now targetIp task "任务创建，等待派发", true)
  else (s, false)

/-- `queue.pop_front` followed by the transition to DISPATCHED. -/
def dequeue (s : HotmethodService) (now : ℤ) (targetIp : String) (task : TaskDesc)
    (rest : List TaskDesc) : HotmethodService :=
  let tasks := if rest.isEmpty then s.tasks.erase targetIp else s.tasks.insert targetIp rest
  updateTaskStatus { s with tasks } now task.taskId .dispatched
    ("任务已派发给 Agent " ++ targetIp)

def popTask (s : HotmethodService) (now : ℤ) (targetIp : String) :
    HotmethodService × Option TaskDesc :=
  match s.queue targetIp with
  | [] => (s, none)
  | task :: rest => (s.dequeue now targetIp task rest, some task)

def getResult (s : HotmethodService) (taskId : String) : Option TaskResult :=
  s.results[taskId]?

def getTaskStatus (s : HotmethodService) (taskId : String) : Option TaskStateInfo :=
  s.tasksState[taskId]?

/-- The internal state for a state on the wire; unknown values count as RUNNING. -/
def internalStatus (status : ℤ) : TaskStatus :=
  if status = 0 then .pending
  else if status = 1 then .dispatched
  else if status = 2 then .running
  else if status = 3 then .uploading
  else if status = 4 then .done
  else if status = 5 then .failed
  else if status = 6 then .timeout
  else .running

/-- The UpdateTaskStatus RPC. -/
def updateTaskStatusRpc (s : HotmethodService) (now : ℤ) (request : TaskStatusUpdate) :
    HotmethodService :=
  s.updateTaskStatus now request.taskId (internalStatus request.status) request.reason

/-- The outcome that a result stands for. -/
def resultStatus (request : TaskResult) : TaskStatus :=
  if request.errorMessage = "" then .done else .failed

/-- First part of NotifyResult: the task state and the cached result. -/
def recordResult (s : HotmethodService) (now : ℤ) (request : TaskResult) : HotmethodService :=
  let s := s.updateTaskStatus now request.taskId (resultStatus request)
    (if request.errorMessage = "" then "采集完成" else "采集失败: " ++ request.errorMessage)
  { s with results := s.results.insert request.taskId request }

/-- The record of a finished window. -/
def windowRecord (config : ContinuousTaskConfig) (sysNow : ℤ) (request : TaskResult)
    (seq : ℤ) : ContinuousWindowRecord :=
  let nowTs := sysNow.tdiv 1000000000
  { windowTid := request.taskId
    seq := seq
    startTime := nowTs - config.windowSec.toNat
    endTime := nowTs
    status := if request.errorMessage = "" then 1 else 2
    cosKey := request.cosKey }

def recordWindow (s : HotmethodService) (parentTid : String)
    (info : ContinuousWindowRecord) : HotmethodService :=
  let windows := (s.continuousWindows[parentTid]?).getD [] ++ [info]
  { s with continuousWindows := s.continuousWindows.insert parentTid windows }

/-- The task that samples one window. -/
def windowTask (config : ContinuousTaskConfig) (parentTid tid : String) : TaskDesc :=
  { taskId := tid
    taskType := 2
    profilerType := config.profilerType
    timeoutSec := config.windowSec + 60
    sampleArgv :=
      { hz := config.hz
        duration := config.windowSec.toUInt64
        pid := config.pid
        callgraph := config.callgraph
        event := config.event
        windowSec := config.windowSec
        parentTid := parentTid } }

/-- Queues the next window; a full queue drops it without a trace. -/
def dispatchWindow (s : HotmethodService) (now : ℤ) (config : ContinuousTaskConfig)
    (parentTid tid : String) : HotmethodService :=
  if s.hasRoom config.targetIp then
    s.enqueue now config.targetIp (windowTask config parentTid tid)
      "continuous window created, waiting dispatch"
  else s

/-- NotifyResult; `none` where the sequence number overflows. -/
def notifyResult (s : HotmethodService) (now sysNow : ℤ) (request : TaskResult) :
    Option HotmethodService :=
  let s := s.recordResult now request
  match splitWindowTid request.taskId with
  | none => some s
  | some (parentTid, seq) =>
    match s.continuousTasks[parentTid]? with
    | none => some s
    | some config =>
      let s := s.recordWindow parentTid (windowRecord config sysNow request seq)
      if !config.running then some s
      else
        match nextSeq seq with
        | none => none
        | some next => some (s.dispatchWindow now config parentTid (windowTid parentTid next))

/-! ## Waiting for a result -/

/-- Collect up to its wait; `none` where it waits. -/
def collectStart (s : HotmethodService) (now : ℤ) (request : CollectRequest) :
    HotmethodService × Option CollectResponse :=
  let pushed := s.pushTask now request.targetIp request.taskDesc
  (pushed.1,
    if !pushed.2 then some { code := -1, message := "task queue full or push failed" }
    else if request.timeoutSec = 0 then some { code := 0, message := "task queued (async)" }
    else none)

/-- What Collect waits for. -/
def collectFinished (s : HotmethodService) (taskId : String) : Bool :=
  (s.results[taskId]?).isSome ||
    (s.tasksState[taskId]?).any fun state => state.status = .timeout || state.status = .failed

/-- Collect from the end of its wait on; `s` is the state in which it wakes up or gives up. -/
def collectEnd (s : HotmethodService) (taskId : String) : CollectResponse :=
  if !s.collectFinished taskId then
    { code := -1, message := "collect timed out waiting for result" }
  else
    match s.results[taskId]?, s.tasksState[taskId]? with
    | some result, _ => { code := 0, message := "OK", result := some result }
    | none, some state =>
      { code := if state.status = .timeout then -1 else -2, message := state.reason }
    | none, none => { code := -1, message := "collect timed out waiting for result" }

/-! ## Cleanup -/

/-- A task that waits for its dispatch or its start for more than `timeoutSec`. -/
def overdue (now timeoutSec : ℤ) (state : TaskStateInfo) : Bool :=
  (state.status = .pending || state.status = .dispatched) &&
    decide (elapsedSeconds now state.timestamp > timeoutSec)

/-- The entry that replaces an overdue one. -/
def expire (now : ℤ) (state : TaskStateInfo) : TaskStateInfo :=
  { status := .failed
    reason := if state.status = .pending then "任务等待超时，Agent 未拉取或不存在"
      else "任务派发超时，Agent 未开始执行"
    timestamp := now }

/-- Removes a task from every queue and drops the queues that are empty afterwards. -/
def dropFromQueues (taskId : String) (tasks : StdMap (List TaskDesc)) : StdMap (List TaskDesc) :=
  tasks.filterMap fun _ queue =>
    let queue := queue.filter fun task => task.taskId ≠ taskId
    if queue.isEmpty then none else some queue

/-- Body of the timeout loop. -/
def failIfOverdue (now timeoutSec : ℤ) (s : HotmethodService) (entry : String × TaskStateInfo) :
    HotmethodService :=
  if overdue now timeoutSec entry.2 then
    { s with
      tasksState := s.tasksState.insert entry.1 (expire now entry.2)
      tasks := dropFromQueues entry.1 s.tasks }
  else s

/-- A finished task whose last change is more than an hour old. -/
def outlived (now : ℤ) (state : TaskStateInfo) : Bool :=
  state.status.terminal && decide (elapsedSeconds now state.timestamp > 3600)

/-- Body of the TTL loop. -/
def eraseIfOutlived (now : ℤ) (s : HotmethodService) (entry : String × TaskStateInfo) :
    HotmethodService :=
  if outlived now entry.2 then
    { s with
      results := s.results.erase entry.1
      tasksState := s.tasksState.erase entry.1 }
  else s

def cleanupTimeoutTasks (s : HotmethodService) (now timeoutSec : ℤ) : HotmethodService :=
  let s := s.tasksState.toList.foldl (failIfOverdue now timeoutSec) s
  s.tasksState.toList.foldl (eraseIfOutlived now) s

/-! ## Continuous profiling -/

/-- The parent id drawn from the steady clock. -/
def parentTidAt (now : ℤ) : String := "cp_" ++ toString (now.tmod 1000000)

def continuousConfig (parentTid : String) (request : StartContinuousRequest) :
    ContinuousTaskConfig :=
  { parentTid := parentTid
    targetIp := request.targetIp
    pid := request.pid
    hz := request.hz
    windowSec := if request.windowSec > 0 then request.windowSec else 300
    profilerType := request.profilerType
    callgraph := request.callgraph
    event := request.event
    running := true }

/-- Stores the configuration and an empty window list. -/
def registerContinuous (s : HotmethodService) (config : ContinuousTaskConfig) :
    HotmethodService :=
  { s with
    continuousTasks := s.continuousTasks.insert config.parentTid config
    continuousWindows := s.continuousWindows.insert config.parentTid [] }

def startContinuousTask (s : HotmethodService) (now : ℤ) (request : StartContinuousRequest) :
    HotmethodService × String :=
  let parentTid := parentTidAt now
  let config := continuousConfig parentTid request
  let s := s.registerContinuous config
  if s.hasRoom request.targetIp then
    (s.enqueue now request.targetIp (windowTask config parentTid (windowTid parentTid 0))
      "continuous first window created, waiting dispatch", parentTid)
  else (s, "")

def stopContinuousTask (s : HotmethodService) (taskId : String) : HotmethodService × Bool :=
  match s.continuousTasks[taskId]? with
  | none => (s, false)
  | some config =>
    let stopped := { config with running := false }
    ({ s with continuousTasks := s.continuousTasks.insert taskId stopped }, true)

def getContinuousWindows (s : HotmethodService) (taskId : String) :
    List ContinuousWindowRecord :=
  (s.continuousWindows[taskId]?).getD []

end HotmethodService

end MiniDrop
