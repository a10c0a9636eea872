import MiniDrop.Model.HotmethodService

/-! # ControlService: the calls of the API server

GetResult and GetTaskStatus lock the service separately, so FetchData is modelled as its two
halves; every other call locks the service once. -/

namespace MiniDrop

/-- The value under which a state is reported to the API server. -/
def publicTaskStatus : TaskStatus → ℤ
  | .dispatched => TaskStatus.pending.toInt
  | .timeout => TaskStatus.failed.toInt
  | status => status.toInt

def statusMessage (state : TaskStateInfo) : String :=
  "STATUS:" ++ toString (publicTaskStatus state.status) ++ ":" ++ state.reason

namespace HotmethodService

/-- FetchData up to GetResult; `none` where there is no result. -/
def fetchResult (s : HotmethodService) (taskId : String) : Option FetchDataResponse :=
  if taskId = "" then some { code := -1, message := "task_id is required" }
  else
    (s.getResult taskId).map fun result =>
      if result.errorMessage ≠ "" then { code := -1, message := result.errorMessage }
      else { code := 0, message := "OK", file := result.file, cosKey := result.cosKey }

/-- FetchData from GetTaskStatus on. -/
def fetchStatus (s : HotmethodService) (taskId : String) : FetchDataResponse :=
  match s.getTaskStatus taskId with
  | some state => { code := 1, message := statusMessage state }
  | none => { code := -1, message := "Result not found" }

/-- FetchData, where nothing runs between its halves. -/
def fetchData (s : HotmethodService) (taskId : String) : FetchDataResponse :=
  (s.fetchResult taskId).getD (s.fetchStatus taskId)

end HotmethodService

/-! ## Creating and stopping tasks -/

/-- The answer to a call that changes the service; `taskId` is the id of a continuous task. -/
structure ControlResponse where
  code : ℤ
  message : String
  taskId : String := ""
deriving DecidableEq

/-- A call that changes the service. -/
inductive ControlCall where
  | createTask (targetIp : String) (taskDesc : TaskDesc)
  | startContinuous (request : StartContinuousRequest)
  | stopContinuous (taskId : String)
deriving DecidableEq

namespace HotmethodService

def createTaskRpc (s : HotmethodService) (now : ℤ) (targetIp : String) (taskDesc : TaskDesc) :
    HotmethodService × ControlResponse :=
  if targetIp = "" then (s, { code := -1, message := "target_ip is required" })
  else if taskDesc.taskId = "" then (s, { code := -1, message := "task_id is required" })
  else
    let pushed := s.pushTask now targetIp taskDesc
    (pushed.1, if pushed.2 then { code := 0, message := "OK" }
      else { code := -1, message := "Task queue full for target agent" })

def startContinuousRpc (s : HotmethodService) (now : ℤ) (request : StartContinuousRequest) :
    HotmethodService × ControlResponse :=
  if request.targetIp = "" then (s, { code := -1, message := "target_ip is required" })
  else if request.pid ≤ 0 then (s, { code := -1, message := "pid is required" })
  else
    let started := s.startContinuousTask now request
    (started.1, if started.2 = "" then { code := -1, message := "Failed to start continuous task" }
      else { code := 0, message := "OK", taskId := started.2 })

def stopContinuousRpc (s : HotmethodService) (taskId : String) :
    HotmethodService × ControlResponse :=
  if taskId = "" then (s, { code := -1, message := "task_id is required" })
  else
    let stopped := s.stopContinuousTask taskId
    (stopped.1, if stopped.2 then { code := 0, message := "OK" }
      else { code := -1, message := "Task not found" })

/-- The service handles the call; `now` is its steady clock. -/
def handle (s : HotmethodService) (now : ℤ) : ControlCall → HotmethodService × ControlResponse
  | .createTask targetIp taskDesc => s.createTaskRpc now targetIp taskDesc
  | .startContinuous request => s.startContinuousRpc now request
  | .stopContinuous taskId => s.stopContinuousRpc taskId

/-- ListWindows; `none` for an error. -/
def listWindows (s : HotmethodService) (taskId : String) : Option (List ContinuousWindowRecord) :=
  if taskId = "" then none else some (s.getContinuousWindows taskId)

end HotmethodService

end MiniDrop
